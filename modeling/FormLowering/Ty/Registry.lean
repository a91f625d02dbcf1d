import FormLowering.Ty.Basic

/-!
The structs and enums of a unit, found by name. A struct may be declared before it has a body; a
body is given once.
-/

namespace FormLowering

structure Field where
  name : String
  ty : Ty
  deriving DecidableEq, Repr, Inhabited

/-- A struct; it has no fields list while it is only declared. -/
structure StructDef where
  name : String
  fields? : Option (List Field)
  params : List String
  deriving DecidableEq, Repr, Inhabited

namespace StructDef

def isComplete (struct : StructDef) : Bool := struct.fields?.isSome

/-- The struct has parameters that nothing has been put in for. -/
def isGeneric (struct : StructDef) : Bool := !struct.params.isEmpty

def field? (struct : StructDef) (name : String) : Option (Nat × Field) := do
  let fields ← struct.fields?
  let index ← fields.findIdx? (·.name == name)
  return (index, ← fields[index]?)

/-- The first field of the name is the one after `index` others. -/
def Declares (struct : StructDef) (name : String) (index : Nat) (field : Field) : Prop :=
  ∃ before after, struct.fields? = some (before ++ field :: after) ∧ before.length = index ∧
    field.name = name ∧ ∀ other ∈ before, other.name ≠ name

end StructDef

/-- An enum; its values are structs of one field that holds the member's value. -/
structure EnumDef where
  name : String
  underlying : Primitive
  members : List (String × Int)
  deriving DecidableEq, Repr, Inhabited

namespace EnumDef

def member? (enum : EnumDef) (name : String) : Option Int :=
  enum.members.lookup name

/-- The first member of the name has the value. -/
def Lists (enum : EnumDef) (name : String) (value : Int) : Prop :=
  ∃ before after, enum.members = before ++ (name, value) :: after ∧
    ∀ other ∈ before, other.1 ≠ name

theorem member?_eq_some_iff {enum : EnumDef} {name : String} {value : Int} :
    enum.member? name = some value ↔ enum.Lists name value := by
  simp only [member?, List.lookup_eq_some_iff, Lists, bne_iff_ne, ne_comm]

end EnumDef

inductive RegistryError where
  | duplicate (name : String)
  | nonIntegerEnum (name : String) (found : Ty)
  deriving DecidableEq, Repr

def RegistryError.message : RegistryError → String
  | .duplicate name => s!"type `{name}` is already defined"
  | .nonIntegerEnum name found =>
    s!"enum `{name}` needs an integer underlying type, found `{found.text}`"

/-- The definitions of a unit, one struct and one enum for each name at most. -/
structure Registry where
  structs : List StructDef := []
  enums : List EnumDef := []
  deriving DecidableEq, Repr, Inhabited

namespace Registry

def struct? (types : Registry) (name : String) : Option StructDef :=
  types.structs.find? (·.name == name)

def enum? (types : Registry) (name : String) : Option EnumDef :=
  types.enums.find? (·.name == name)

/-- Makes a struct known without a body; a known one stays as it is. -/
def declareStruct (types : Registry) (name : String) : Registry :=
  if (types.struct? name).isSome then types
  else { types with structs := types.structs ++ [⟨name, none, []⟩] }

/-- Gives a struct its parameters and fields, unless the name has a definition. -/
def defineStruct (types : Registry) (name : String) (params : List String) (fields : List Field) :
    Except RegistryError Registry :=
  let struct : StructDef := ⟨name, some fields, params⟩
  if (types.enum? name).isSome then .error (.duplicate name)
  else match types.struct? name with
    | none => .ok { types with structs := types.structs ++ [struct] }
    | some known =>
      if known.isComplete then .error (.duplicate name)
      else
        let structs := types.structs.map fun other => if other.name = name then struct else other
        .ok { types with structs }

/-- Defines an enum over an integer kind, unless the name is taken. -/
def defineEnum (types : Registry) (name : String) (underlying : Primitive)
    (members : List (String × Int)) : Except RegistryError Registry :=
  if !underlying.isInteger then .error (.nonIntegerEnum name (.primitive underlying))
  else if (types.enum? name).isSome || (types.struct? name).isSome then .error (.duplicate name)
  else .ok { types with enums := types.enums ++ [⟨name, underlying, members⟩] }

/-- The type that a bare name stands for, an enum before a struct. -/
def named? (types : Registry) (name : String) : Option Ty :=
  if (types.enum? name).isSome then some (.enum name)
  else if (types.struct? name).isSome then some (.struct name)
  else none

end Registry

end FormLowering
