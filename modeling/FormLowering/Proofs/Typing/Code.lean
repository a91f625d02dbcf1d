import FormLowering.Proofs.Code.Growth
import FormLowering.Proofs.Ty.Growth

/-!
Typing of code. A load has its pointer's pointee type, a store writes what its pointer leads to,
and an address computation enters the first element of an array or a field of a struct. Types are
compared up to the const flag of the outermost pointer.
-/

namespace FormLowering

namespace Ty

/-- The type with its outermost pointer made mutable. -/
def mutable : Ty → Ty
  | .pointer pointee _ => .pointer pointee false
  | ty => ty

/-- Equal up to the const flag of the outermost pointer. -/
def Similar (a b : Ty) : Prop := a.mutable = b.mutable

theorem Similar.refl (a : Ty) : a.Similar a := rfl

theorem Similar.trans {a b c : Ty} (hab : a.Similar b) (hbc : b.Similar c) : a.Similar c :=
  Eq.trans hab hbc

theorem similar_pointer (pointee : Ty) (a b : Bool) :
    (Ty.pointer pointee a).Similar (.pointer pointee b) := rfl

/-- A type similar to a pointer is a pointer to the same. -/
theorem Similar.eq_pointer {a pointee : Ty} {isConst : Bool}
    (h : a.Similar (.pointer pointee isConst)) : ∃ flag, a = .pointer pointee flag := by
  cases a with
  | pointer inner flag =>
    cases h
    exact ⟨flag, rfl⟩
  | primitive kind => cases h
  | array length element => cases h
  | struct name => cases h
  | enum name => cases h
  | param name => cases h

/-- Types that are similar are equal, or pointers to the same. -/
theorem Similar.eq_or_pointer {a b : Ty} (h : a.Similar b) :
    a = b ∨ ∃ pointee flag other, a = .pointer pointee flag ∧ b = .pointer pointee other := by
  cases b with
  | pointer pointee other =>
    obtain ⟨flag, rfl⟩ := h.eq_pointer
    exact .inr ⟨pointee, flag, other, rfl, rfl⟩
  | primitive | array | struct | enum | param =>
    cases a with
    | pointer => cases h
    | primitive | array | struct | enum | param => exact .inl h

theorem eq_pointer_of_pointee? {a pointee : Ty} (h : a.pointee? = some pointee) :
    ∃ flag, a = .pointer pointee flag := by
  cases a with
  | pointer inner flag =>
    cases h
    exact ⟨flag, rfl⟩
  | primitive kind => cases h
  | array length element => cases h
  | struct name => cases h
  | enum name => cases h
  | param name => cases h

theorem eq_array_of_element? {a element : Ty} (h : a.element? = some element) :
    ∃ length, a = .array length element := by
  cases a with
  | array length inner =>
    cases h
    exact ⟨length, rfl⟩
  | primitive kind => cases h
  | pointer inner flag => cases h
  | struct name => cases h
  | enum name => cases h
  | param name => cases h

theorem eq_struct_of_structName? {a : Ty} {name : String} (h : a.structName? = some name) :
    a = .struct name := by
  cases a with
  | struct other =>
    cases h
    rfl
  | primitive kind => cases h
  | pointer inner flag => cases h
  | array length element => cases h
  | enum other => cases h
  | param other => cases h

end Ty

def Instruction.operands : Instruction → List ValueId
  | .alloca _ _ => []
  | .load pointer => [pointer]
  | .store value pointer => [value, pointer]
  | .gep pointer _ => [pointer]

/-- The instruction has this type, given the types of its operands. -/
inductive Instruction.Typed (module : Module) (types : Registry) : Instruction → Ty → Prop
  | alloca (allocated : Ty) (name : String) :
      Typed module types (.alloca allocated name) (.pointerTo allocated)
  | load {pointer : ValueId} {ty : Ty} {isConst : Bool} :
      module.typeOf? pointer = some (.pointer ty isConst) → Typed module types (.load pointer) ty
  | store {value pointer : ValueId} {source stored : Ty} {isConst : Bool} :
      module.typeOf? pointer = some (.pointer stored isConst) →
      module.typeOf? value = some source → source.Similar stored →
      Typed module types (.store value pointer) .void
  | element {pointer : ValueId} {length : Nat} {element : Ty} {isConst : Bool} (flag : Bool) :
      module.typeOf? pointer = some (.pointer (.array length element) isConst) →
      Typed module types (.gep pointer [0, 0]) (.pointer element flag)
  | field {pointer : ValueId} {name : String} {struct : StructDef} {fields : List Field}
      {index : Nat} {field : Field} {isConst : Bool} :
      module.typeOf? pointer = some (.pointer (.struct name) isConst) →
      types.struct? name = some struct → struct.fields? = some fields →
      fields[index]? = some field →
      Typed module types (.gep pointer [0, index]) (.pointerTo field.ty)

/-- The constants that tokens and measurements spell, with their types. -/
inductive Constant.Literal : Constant → Ty → Prop
  | int (bits : Nat) (value : Int) (kind : Primitive) : Literal (.int bits value) (.primitive kind)
  | float (kind : FloatKind) (value : Binary64) (ty : Primitive) :
      Literal (.float kind value) (.primitive ty)
  | enum (bits : Nat) (value : Int) (name : String) :
      Literal (.struct [.int bits value]) (.enum name)

/-- A value of a module is a literal constant, the address of a global, or a typed instruction. -/
inductive Value.Typed (module : Module) (types : Registry) : Value → Prop
  | constant {constant : Constant} {ty : Ty} : constant.Literal ty →
      Typed module types ⟨.constant constant, ty, none⟩
  | globalAddress {id : GlobalId} {found : Global} : module.global? id = some found →
      Typed module types ⟨.globalAddress id, .pointerTo found.ty, none⟩
  | instruction {instruction : Instruction} {ty : Ty} (block? : Option BlockId) :
      instruction.Typed module types ty →
      Typed module types ⟨.instruction instruction, ty, block?⟩

section Growth

variable {module later : Module} {types known : Registry}

theorem Instruction.Typed.mono (hm : module.Extends later) (ht : types.Extends known)
    {instruction : Instruction} {ty : Ty} (h : instruction.Typed module types ty) :
    instruction.Typed later known ty := by
  cases h with
  | alloca allocated name => exact .alloca allocated name
  | load hp => exact .load (hm.typeOf hp)
  | store hp hv hs => exact .store (hm.typeOf hp) (hm.typeOf hv) hs
  | element flag hp => exact .element flag (hm.typeOf hp)
  | field hp hstruct hfields hfield =>
    exact .field (hm.typeOf hp) (ht.struct hstruct hfields) hfields hfield

theorem Value.Typed.mono (hm : module.Extends later) (ht : types.Extends known) {v : Value}
    (h : v.Typed module types) : v.Typed later known := by
  cases h with
  | constant hc => exact .constant hc
  | globalAddress hg => exact .globalAddress (hm.global hg)
  | instruction block? hi => exact .instruction block? (hi.mono hm ht)

end Growth

def Module.Typed (module : Module) (types : Registry) : Prop :=
  ∀ id v, module.value? id = some v → v.Typed module types

theorem Module.Typed.grow {module later : Module} {types known : Registry}
    (h : module.Typed types) (hm : module.Extends later) (ht : types.Extends known)
    (new : ∀ id v, later.value? id = some v → module.value? id = none → v.Typed later known) :
    later.Typed known := by
  intro id v hv
  cases hold : module.value? id with
  | none => exact new id v hv hold
  | some w =>
    have hw := hm.value hold
    rw [hv] at hw
    cases hw
    exact (h id _ hold).mono hm ht

end FormLowering
