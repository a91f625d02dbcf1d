import FormLowering.Proofs.Typing.Code

/-!
The order of instructions. In a block every instruction comes after its operands, which are
constants, addresses of globals or earlier instructions of the same block.
-/

namespace FormLowering
namespace Module

/-- The value needs no instruction to be computed. -/
def Fixed (module : Module) (id : ValueId) : Prop :=
  ∃ v, module.value? id = some v ∧ ∀ instruction, v.kind ≠ .instruction instruction

/-- Instructions of which each finds its operands among the ready values and those before it. -/
def Ordered (module : Module) : (ready ids : List ValueId) → Prop
  | _, [] => True
  | ready, id :: rest =>
    (∃ instruction ty block?, module.value? id = some ⟨.instruction instruction, ty, block?⟩ ∧
      ∀ operand ∈ instruction.operands, module.Fixed operand ∨ operand ∈ ready) ∧
    module.Ordered (id :: ready) rest

variable {module later : Module}

theorem Fixed.mono (h : module.Extends later) {id : ValueId} (fixed : module.Fixed id) :
    later.Fixed id := by
  obtain ⟨v, hv, hkind⟩ := fixed
  exact ⟨v, h.value hv, hkind⟩

theorem Ordered.mono (h : module.Extends later) {ready ids : List ValueId}
    (ordered : module.Ordered ready ids) : later.Ordered ready ids := by
  induction ids generalizing ready with
  | nil => trivial
  | cons id rest ih =>
    obtain ⟨⟨instruction, ty, block?, hv, operands⟩, hrest⟩ := ordered
    refine ⟨⟨instruction, ty, block?, h.value hv, fun operand hoperand => ?_⟩, ih hrest⟩
    exact (operands operand hoperand).imp_left (Fixed.mono h)

/-- An instruction whose operands are there can be appended. -/
theorem Ordered.append {ready ids : List ValueId} {id : ValueId} {instruction : Instruction}
    {ty : Ty} {block? : Option BlockId} (ordered : module.Ordered ready ids)
    (hv : module.value? id = some ⟨.instruction instruction, ty, block?⟩)
    (operands : ∀ operand ∈ instruction.operands,
      module.Fixed operand ∨ operand ∈ ready ∨ operand ∈ ids) :
    module.Ordered ready (ids ++ [id]) := by
  induction ids generalizing ready with
  | nil =>
    refine ⟨⟨instruction, ty, block?, hv, fun operand hoperand => ?_⟩, trivial⟩
    rcases operands operand hoperand with fixed | old | new
    · exact .inl fixed
    · exact .inr old
    · cases new
  | cons head rest ih =>
    refine ⟨ordered.1, ih ordered.2 ?_⟩
    intro operand hoperand
    rcases operands operand hoperand with fixed | old | new
    · exact .inl fixed
    · exact .inr (.inl (List.mem_cons_of_mem head old))
    · rcases List.mem_cons.mp new with rfl | new
      · exact .inr (.inl (List.mem_cons_self ..))
      · exact .inr (.inr new)

theorem instruction?_eq_some {id : ValueId} {instruction : Instruction} {ty : Ty}
    {block? : Option BlockId}
    (h : module.value? id = some ⟨.instruction instruction, ty, block?⟩) :
    module.instruction? id = some instruction := by
  simp only [instruction?]
  rw [h]

end Module
end FormLowering
