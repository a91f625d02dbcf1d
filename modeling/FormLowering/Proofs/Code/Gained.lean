import Mathlib.Data.List.Basic
import Mathlib.Tactic.ByContra
import FormLowering.Proofs.Code.Constness
import FormLowering.Proofs.Code.WellFormed

/-!
What a block gains while its module grows. In well-formed modules a value stands in the block that
it records, so the code behind what stood in a block before is made of new values.
-/

namespace FormLowering
namespace Module

variable {module later : Module}

/-- A value stands in no block but the one that it records. -/
theorem WellFormed.block_of_mem (h : module.WellFormed) {block : BlockId} {b : Block}
    (hb : module.block? block = some b) {id : ValueId} {v : Value} (hv : module.value? id = some v)
    (mem : id ∈ b.instructions) : v.block? = some block := by
  have listed := h.listed hv hb
  by_contra elsewhere
  rw [if_neg elsewhere] at listed
  exact List.count_eq_zero.mp listed mem

/-- What a block gains behind what stood there before is new. -/
theorem WellFormed.new_of_mem (h : module.WellFormed) (wellFormed : later.WellFormed)
    (grows : module.Extends later) {block : BlockId} {b : Block} {more : List ValueId}
    (hb : module.block? block = some b)
    (hb' : later.block? block = some { b with instructions := b.instructions ++ more })
    {id : ValueId} (mem : id ∈ more) : module.value? id = none := by
  cases hv : module.value? id with
  | none => rfl
  | some v =>
    have before := h.listed hv hb
    have after := wellFormed.listed (grows.value hv) hb'
    rw [List.count_append, before] at after
    have absent : more.count id = 0 := by omega
    exact absurd mem (List.count_eq_zero.mp absent)

/-- So is all that stands in a new block. -/
theorem WellFormed.new_of_block (h : module.WellFormed) (wellFormed : later.WellFormed)
    (grows : module.Extends later) {block : BlockId} {b : Block} (hb : module.block? block = none)
    (hb' : later.block? block = some b) {id : ValueId} (mem : id ∈ b.instructions) :
    module.value? id = none := by
  cases hv : module.value? id with
  | none => rfl
  | some v =>
    have here := wellFormed.block_of_mem hb' (grows.value hv) mem
    have hasBlock := (h.recorded hv here).2
    rw [hb] at hasBlock
    cases hasBlock

/-- The code of a block is made of the values that record it. -/
theorem WellFormed.of_mem_filterMap (h : module.WellFormed) {block : BlockId} {b : Block}
    (hb : module.block? block = some b) {ids : List ValueId} (listed : ids ⊆ b.instructions)
    {id : ValueId} {instruction : Instruction}
    (mem : (id, instruction) ∈ ids.filterMap fun id => (module.instruction? id).map (id, ·)) :
    id ∈ ids ∧ ∃ ty, module.value? id = some ⟨.instruction instruction, ty, some block⟩ := by
  obtain ⟨other, here, found⟩ := List.mem_filterMap.mp mem
  obtain ⟨_, found, same⟩ := Option.map_eq_some_iff.mp found
  cases same
  obtain ⟨ty, block?, hv⟩ := Module.value?_of_instruction? found
  have placed : block? = some block := h.block_of_mem hb hv (listed here)
  exact ⟨here, ty, placed ▸ hv⟩

/-- The code of a block reads the same in a larger module, and what the block gains stands behind
it. -/
theorem WellFormed.instructions_append (h : module.WellFormed) (grows : module.Extends later)
    {block : BlockId} {b : Block} {more : List ValueId} (hb : module.block? block = some b)
    (hb' : later.block? block = some { b with instructions := b.instructions ++ more }) :
    later.instructions block = module.instructions block ++
      more.filterMap fun id => (later.instruction? id).map (id, ·) := by
  have kept : b.instructions.filterMap (fun id => (later.instruction? id).map (id, ·)) =
      b.instructions.filterMap fun id => (module.instruction? id).map (id, ·) := by
    apply List.filterMap_congr
    intro id mem
    obtain ⟨v, hv⟩ := Option.isSome_iff_exists.mp (h.known hb mem)
    simp only [instruction?]
    rw [hv, grows.value hv]
  simp only [instructions]
  rw [hb, hb']
  dsimp only
  rw [List.filterMap_append, kept]

/-- A block that stays as it was keeps its code. -/
theorem WellFormed.instructions_same (h : module.WellFormed) (grows : module.Extends later)
    {block : BlockId} (same : later.block? block = module.block? block) :
    later.instructions block = module.instructions block := by
  cases hb : module.block? block with
  | none => simp only [instructions, same, hb]
  | some b =>
    have hb' : later.block? block = some { b with instructions := b.instructions ++ [] } := by
      rw [same, hb, List.append_nil]
    exact (h.instructions_append grows hb hb').trans (List.append_nil _)

/-- A block keeps its code, and the values that it gains behind it are new. -/
theorem WellFormed.instructions_gained (h : module.WellFormed) (wellFormed : later.WellFormed)
    (grows : module.Extends later) (block : BlockId) :
    ∃ new, later.instructions block = module.instructions block ++ new ∧
      ∀ id instruction, (id, instruction) ∈ new → module.value? id = none ∧
        ∃ ty, later.value? id = some ⟨.instruction instruction, ty, some block⟩ := by
  cases hb : module.block? block with
  | none =>
    refine ⟨later.instructions block, by simp [instructions, hb], fun id instruction mem => ?_⟩
    simp only [instructions] at mem
    split at mem
    · rename_i b hb'
      obtain ⟨here, hv⟩ := wellFormed.of_mem_filterMap hb' (List.Subset.refl _) mem
      exact ⟨h.new_of_block wellFormed grows hb hb' here, hv⟩
    · cases mem
  | some b =>
    obtain ⟨more, hb'⟩ := grows.block hb
    refine ⟨_, h.instructions_append grows hb hb', fun id instruction mem => ?_⟩
    obtain ⟨here, hv⟩ := wellFormed.of_mem_filterMap hb' (List.subset_append_right _ _) mem
    exact ⟨h.new_of_mem wellFormed grows hb hb' here, hv⟩

end Module

/-- With an insertion point, an instruction is the last of the code of its block. -/
theorem Builder.instructions_pushInstruction {builder : Builder} (h : builder.module.WellFormed)
    {block : BlockId} (position : builder.block? = some block)
    (hasBlock : (builder.module.block? block).isSome) (instruction : Instruction) (ty : Ty) :
    (builder.pushInstruction instruction ty).2.module.instructions block =
      builder.module.instructions block ++ [(builder.nextValue, instruction)] := by
  obtain ⟨b, hb⟩ := Option.isSome_iff_exists.mp hasBlock
  have hb' := builder.block?_pushInstruction position instruction ty block
  rw [if_pos rfl, hb] at hb'
  have newest := builder.value?_pushInstruction instruction ty builder.nextValue
  rw [if_pos rfl] at newest
  rw [h.instructions_append (builder.extends_pushInstruction instruction ty) hb hb']
  simp [Module.instruction?, newest]

end FormLowering
