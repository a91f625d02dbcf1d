import FormLowering.Form.Literal
import FormLowering.Proofs.Typing.Code

/-!
Const-correct code. Only the address of its first character is ever computed from a constant
global, with the type of a pointer to constant characters. Nothing is stored through such a
pointer, and one that is stored goes where a pointer of its own type is kept.
-/

namespace FormLowering

theorem Ty.pointerTo_ne_constPointerTo (a b : Ty) : Ty.pointerTo a ≠ .constPointerTo b := by
  intro same
  cases same

namespace Module

/-- The value is the address of a constant global. -/
def IsLiteral (module : Module) (id : ValueId) : Prop :=
  ∃ v global found, module.value? id = some v ∧ v.kind = .globalAddress global ∧
    module.global? global = some found ∧ found.isConstant

/-- A value of a type that is not the address of a constant global. -/
structure Ordinary (module : Module) (id : ValueId) (ty : Ty) : Prop where
  typed : module.typeOf? id = some ty
  ordinary : ¬ module.IsLiteral id

end Module

/-- The instruction gives no right to write that its operands do not give. -/
inductive Instruction.ConstCorrect (module : Module) : Instruction → Ty → Prop
  | alloca (allocated : Ty) (name : String) (ty : Ty) :
      ConstCorrect module (.alloca allocated name) ty
  | load {pointer : ValueId} {found : Ty} (ty : Ty) : module.Ordinary pointer found →
      ConstCorrect module (.load pointer) ty
  | store {value pointer : ValueId} {source target : Ty} (ty : Ty) :
      module.Ordinary pointer target → module.Ordinary value source →
      target ≠ .constPointerTo .char →
      (source = .constPointerTo .char → target.pointee? = some source) →
      ConstCorrect module (.store value pointer) ty
  | gep {pointer : ValueId} {found : Ty} (indices : List Nat) (ty : Ty) :
      module.Ordinary pointer found → ConstCorrect module (.gep pointer indices) ty
  /-- A literal decays to a pointer that does not write. -/
  | literal (pointer : ValueId) (indices : List Nat) :
      ConstCorrect module (.gep pointer indices) (.constPointerTo .char)

theorem Instruction.ConstCorrect.of_gep {module : Module} {pointer : ValueId} {indices : List Nat}
    {ty : Ty} (h : (Instruction.gep pointer indices).ConstCorrect module ty) :
    (∃ found, module.Ordinary pointer found) ∨ ty = .constPointerTo .char := by
  cases h with
  | gep _ _ ordinary => exact .inl ⟨_, ordinary⟩
  | literal => exact .inr rfl

/-- Every instruction is const-correct, and constant globals are the stored strings. -/
structure Module.ConstCorrect (module : Module) : Prop where
  instruction : ∀ {id instruction ty block?},
    module.value? id = some ⟨.instruction instruction, ty, block?⟩ →
    instruction.ConstCorrect module ty
  literal : ∀ {id found}, module.global? id = some found → found.isConstant →
    ∃ text, found.init? = some (.bytes (stringBytes text))

section Growth

variable {module later : Module} {types : Registry}

/-- What an old value stands for is settled. -/
theorem Module.IsLiteral.of_later (hm : module.Extends later) (typed : module.Typed types)
    {id : ValueId} (known : (module.value? id).isSome) (h : later.IsLiteral id) :
    module.IsLiteral id := by
  obtain ⟨v, global, found, hv, hkind, hfound, isConstant⟩ := h
  obtain ⟨w, hw⟩ := Option.isSome_iff_exists.mp known
  cases hv.symm.trans (hm.value hw)
  have typed := typed id v hw
  cases typed with
  | constant => cases hkind
  | instruction => cases hkind
  | @globalAddress _ other hother =>
    cases hkind
    cases hfound.symm.trans (hm.global hother)
    exact ⟨_, global, found, hw, rfl, hother, isConstant⟩

theorem Module.value?_isSome_of_typeOf? {id : ValueId} {ty : Ty} (h : module.typeOf? id = some ty) :
    (module.value? id).isSome := by
  obtain ⟨v, hv, -⟩ := Option.map_eq_some_iff.mp h
  exact Option.isSome_iff_exists.mpr ⟨v, hv⟩

theorem Module.value?_of_instruction? {id : ValueId} {instruction : Instruction}
    (h : module.instruction? id = some instruction) :
    ∃ ty block?, module.value? id = some ⟨.instruction instruction, ty, block?⟩ := by
  unfold instruction? at h
  split at h
  · rename_i ty block? hv
    cases h
    exact ⟨ty, block?, hv⟩
  · cases h

theorem Module.Ordinary.mono (hm : module.Extends later) (typed : module.Typed types) {id : ValueId}
    {ty : Ty} (h : module.Ordinary id ty) : later.Ordinary id ty where
  typed := hm.typeOf h.typed
  ordinary literal := h.ordinary (literal.of_later hm typed (value?_isSome_of_typeOf? h.typed))

theorem Module.Ordinary.of_value {id : ValueId} {v : Value} (hv : module.value? id = some v)
    (hkind : ∀ global, v.kind ≠ .globalAddress global) : module.Ordinary id v.ty where
  typed := typeOf?_of_value? hv
  ordinary := by
    rintro ⟨w, global, found, hw, same, -⟩
    cases hv.symm.trans hw
    exact hkind global same

theorem Instruction.ConstCorrect.mono (hm : module.Extends later) (typed : module.Typed types)
    {instruction : Instruction} {ty : Ty} (h : instruction.ConstCorrect module ty) :
    instruction.ConstCorrect later ty := by
  cases h with
  | alloca allocated name => exact .alloca allocated name ty
  | load _ hp => exact .load ty (hp.mono hm typed)
  | store _ hp hv writable kept =>
    exact .store ty (hp.mono hm typed) (hv.mono hm typed) writable kept
  | gep indices _ hp => exact .gep indices ty (hp.mono hm typed)
  | literal pointer indices => exact .literal pointer indices

/-- A const-correct module stays so when it grows by const-correct instructions and by strings. -/
theorem Module.ConstCorrect.grow (h : module.ConstCorrect) (typed : module.Typed types)
    (hm : module.Extends later)
    (instructions : ∀ id instruction ty block?,
      later.value? id = some ⟨.instruction instruction, ty, block?⟩ → module.value? id = none →
      instruction.ConstCorrect later ty)
    (literals : ∀ id found, later.global? id = some found → module.global? id = none →
      found.isConstant → ∃ text, found.init? = some (.bytes (stringBytes text))) :
    later.ConstCorrect where
  instruction {id instruction ty block?} hv := by
    cases hold : module.value? id with
    | none => exact instructions id instruction ty block? hv hold
    | some w =>
      cases hv.symm.trans (hm.value hold)
      exact (h.instruction hold).mono hm typed
  literal {id found} hfound isConstant := by
    cases hold : module.global? id with
    | none => exact literals id found hfound hold isConstant
    | some g =>
      cases hfound.symm.trans (hm.global hold)
      exact h.literal hold isConstant

end Growth

namespace Builder

variable {builder : Builder} {types : Registry} (correct : builder.module.ConstCorrect)
  (typed : builder.module.Typed types)

include correct typed

theorem constCorrect_pushInstruction {instruction : Instruction} {ty : Ty}
    (h : instruction.ConstCorrect builder.module ty) :
    (builder.pushInstruction instruction ty).2.module.ConstCorrect := by
  have grows := builder.extends_pushInstruction instruction ty
  refine correct.grow typed grows ?_ ?_
  · intro id other ty' block? hv hold
    rw [value?_pushInstruction] at hv
    split at hv
    · cases hv
      exact h.mono grows typed
    · exact absurd (hold.symm.trans hv) nofun
  · intro id found hfound hold
    exact absurd (hold.symm.trans ((global?_pushInstruction ..).symm.trans hfound)) nofun

theorem constCorrect_constant (ty : Ty) (constant : Constant) :
    (builder.constant ty constant).2.module.ConstCorrect := by
  refine correct.grow typed (builder.extends_pushValue _) ?_ ?_
  · intro id instruction ty' block? hv hold
    have hv := (builder.value?_pushValue _ id).symm.trans hv
    split at hv
    · cases hv
    · exact absurd (hold.symm.trans hv) nofun
  · intro id found hfound hold
    exact absurd (hold.symm.trans hfound) nofun

/-- A new global is not constant, or it is a string. -/
theorem constCorrect_addGlobal? {name : String} {ty : Ty} {linkage : Linkage} {isConstant : Bool}
    {init? : Option Constant} {added : GlobalId × ValueId × Builder}
    (hadded : builder.addGlobal? name ty linkage isConstant init? = some added)
    (literal : isConstant → ∃ text, init? = some (.bytes (stringBytes text))) :
    added.2.2.module.ConstCorrect := by
  refine correct.grow typed (builder.extends_addGlobal? hadded) ?_ ?_
  · intro id instruction ty' block? hv hold
    rw [builder.value?_addGlobal? hadded] at hv
    split at hv
    · cases hv
    · exact absurd (hold.symm.trans hv) nofun
  · intro id found hfound hold hconstant
    rw [builder.global?_addGlobal? hadded] at hfound
    split at hfound
    · cases hfound
      exact literal hconstant
    · exact absurd (hold.symm.trans hfound) nofun

end Builder
end FormLowering
