import FormLowering.Code.Module
import FormLowering.Ty.Registry

/-!
What memory holds: trees of values, addressed by a root object and a path. A path that leaves its
tree is a trap, for reading and for writing.
-/

namespace FormLowering

/-- The object that an address was derived from. -/
inductive Root where
  | stack (slot : ValueId)
  | global (global : GlobalId)
  deriving DecidableEq, Repr

/-- A root object and the indices of components on the way into it. -/
structure Address where
  root : Root
  path : List Nat
  deriving DecidableEq, Repr

inductive Datum where
  | int (value : Int)
  | float (value : Binary64)
  | address (address : Address)
  | aggregate (items : List Datum)
  | undefined
  deriving Repr

instance : Inhabited Datum := ⟨.undefined⟩

inductive Trap where
  | undefined (value : ValueId)
  | notAPointer (value : ValueId)
  | outOfObject
  | notAggregate
  | unshaped (ty : Ty)
  deriving DecidableEq, Repr

def Trap.message : Trap → String
  | .undefined value => s!"value %{value.index} used before it was computed"
  | .notAPointer value => s!"value %{value.index} is not a pointer"
  | .outOfObject => "address steps outside its object"
  | .notAggregate => "indexing into a scalar"
  | .unshaped ty => s!"no runtime shape for type `{ty.text}`"

namespace Datum

def int? : Datum → Option Int
  | .int value => some value
  | _ => none

def address? : Datum → Option Address
  | .address found => some found
  | _ => none

mutual

/-- The value of a constant; bytes are an aggregate of integers. -/
def ofConstant : Constant → Datum
  | .int _ value => .int value
  | .float _ value => .float value
  | .bytes content => .aggregate (content.map fun byte => .int byte.toNat)
  | .struct fields => .aggregate (ofConstants fields)

def ofConstants : List Constant → List Datum
  | [] => []
  | field :: rest => ofConstant field :: ofConstants rest

end

/-- The component at a path. Every component of an undefined value is undefined. -/
def get : Datum → List Nat → Except Trap Datum
  | datum, [] => .ok datum
  | .aggregate items, index :: path =>
    match items[index]? with
    | some item => item.get path
    | none => .error .outOfObject
  | .undefined, _ :: _ => .ok .undefined
  | _, _ :: _ => .error .notAggregate

/-- The datum with the component at a path replaced. An undefined value has no components to
replace. -/
def set (value : Datum) : Datum → List Nat → Except Trap Datum
  | _, [] => .ok value
  | .aggregate items, index :: path =>
    match items[index]? with
    | some item => do return .aggregate (items.set index (← set value item path))
    | none => .error .outOfObject
  | .undefined, _ :: _ => .error .outOfObject
  | _, _ :: _ => .error .notAggregate

end Datum

/-- The longest array that is laid out element by element. -/
def maxBlankLength : Nat := 65536

/-- Uninitialized memory of a type, down to `depth` levels of arrays and structs. Its leaves are
undefined, and an enum is a struct of one leaf. -/
def Ty.blankWithin (types : Registry) : (depth : Nat) → Ty → Except Trap Datum
  | 0, ty => .error (.unshaped ty)
  | depth + 1, .array length element =>
    if maxBlankLength < length then .error (.unshaped (.array length element))
    else do return .aggregate (List.replicate length (← element.blankWithin types depth))
  | depth + 1, .struct name =>
    match (types.struct? name).bind (·.fields?) with
    | some fields => do
      return .aggregate (← fields.mapM fun field => field.ty.blankWithin types depth)
    | none => .error (.unshaped (.struct name))
  | _ + 1, .enum _ => .ok (.aggregate [.undefined])
  | _ + 1, _ => .ok .undefined

def Ty.blank (types : Registry) (ty : Ty) : Except Trap Datum := ty.blankWithin types 33

end FormLowering
