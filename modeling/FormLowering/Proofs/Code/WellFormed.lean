import FormLowering.Proofs.Typing.Code

/-!
Well-formed modules. Values and blocks, blocks and functions, globals and their addresses refer to
each other, and every reference is answered: a value stands once in the block that it records, a
block once in the function that it records, and the name table leads from a name to the one global
that has it.
-/

namespace FormLowering
namespace Module

/-- The globals with their names, the newest first. -/
def namedGlobals (module : Module) : List (String × GlobalId) :=
  (module.globals.toList.mapIdx fun index g => (g.name, ⟨index⟩)).reverse

theorem map_fst_namedGlobals (module : Module) :
    module.namedGlobals.map (·.1) = (module.globals.toList.map (·.name)).reverse := by
  rw [namedGlobals, List.map_reverse]
  congr 1
  apply List.ext_getElem <;> simp

theorem isSome_globalNamed?_iff {module : Module} {name : String} :
    (module.globalNamed? name).isSome ↔ name ∈ module.names.map (·.1) := by
  simp [globalNamed?]

structure WellFormed (module : Module) : Prop where
  /-- Only an instruction records a block, and the block exists. -/
  recorded : ∀ {id v block}, module.value? id = some v → v.block? = some block →
    (∃ instruction, v.kind = .instruction instruction) ∧ (module.block? block).isSome
  /-- A value stands once in the block that it records, and nowhere else. -/
  listed : ∀ {id v block b}, module.value? id = some v → module.block? block = some b →
    b.instructions.count id = if v.block? = some block then 1 else 0
  /-- What stands in a block is a value. -/
  known : ∀ {block b id}, module.block? block = some b → id ∈ b.instructions →
    (module.value? id).isSome
  /-- A block has its values in the order of their numbers. -/
  increasing : ∀ {block b}, module.block? block = some b →
    b.instructions.Pairwise (·.index < ·.index)
  /-- The function that a block records exists. -/
  owner : ∀ {block b}, module.block? block = some b → (module.function? b.function).isSome
  /-- A block stands once in the function that it records, and nowhere else. -/
  owned : ∀ {block b function f}, module.block? block = some b →
    module.function? function = some f →
    f.blocks.count block = if b.function = function then 1 else 0
  /-- What stands in a function is a block. -/
  contained : ∀ {function f block}, module.function? function = some f → block ∈ f.blocks →
    (module.block? block).isSome
  /-- The address of a global is a pointer to what is stored in it. -/
  address : ∀ {id g}, module.global? id = some g →
    module.value? g.address = some ⟨.globalAddress id, .pointerTo g.ty, none⟩
  /-- The name table has every global once, and nothing else. -/
  tabled : module.names = module.namedGlobals
  /-- A name leads to the global that has it. -/
  named : ∀ {name id}, module.globalNamed? name = some id ↔
    ∃ g, module.global? id = some g ∧ g.name = name
  /-- The operands of an instruction come before it. -/
  operands : ∀ {id instruction ty block?},
    module.value? id = some ⟨.instruction instruction, ty, block?⟩ →
    ∀ operand ∈ instruction.operands, operand.index < id.index

/-- Two globals have two names. -/
theorem WellFormed.global_unique {module : Module} (h : module.WellFormed) {id other : GlobalId}
    {g found : Global} (hg : module.global? id = some g) (hfound : module.global? other = some found)
    (same : g.name = found.name) : id = other := by
  have first := h.named.mpr ⟨g, hg, same⟩
  have second := h.named.mpr ⟨found, hfound, rfl⟩
  exact Option.some.inj (first.symm.trans second)

theorem wellFormed_empty (name : String) : (Module.mk name #[] #[] [] #[] #[]).WellFormed := by
  constructor <;> simp [value?, block?, function?, global?, globalNamed?, namedGlobals]

end Module

namespace Builder

variable {builder : Builder}

/-- The next value is in no block yet. -/
theorem nextValue_not_mem (h : builder.module.WellFormed) {block : BlockId} {b : Block}
    (hb : builder.module.block? block = some b) : builder.nextValue ∉ b.instructions := by
  intro mem
  obtain ⟨v, hv⟩ := Option.isSome_iff_exists.mp (h.known hb mem)
  exact Nat.lt_irrefl _ (Module.lt_size_of_value? hv)

theorem operand_lt_nextValue {instruction : Instruction}
    (known : ∀ operand ∈ instruction.operands, (builder.module.value? operand).isSome) :
    ∀ operand ∈ instruction.operands, operand.index < builder.nextValue.index := by
  intro operand mem
  obtain ⟨v, hv⟩ := Option.isSome_iff_exists.mp (known operand mem)
  exact Module.lt_size_of_value? hv

/-- A value that no block takes, such as a constant. -/
theorem wellFormed_pushValue (h : builder.module.WellFormed) {v : Value} (unplaced : v.block? = none)
    (known : ∀ instruction, v.kind = .instruction instruction →
      ∀ operand ∈ instruction.operands, (builder.module.value? operand).isSome) :
    (builder.pushValue v).2.module.WellFormed := by
  have grows := builder.extends_pushValue v
  constructor
  · intro id w block hw hblock
    rw [value?_pushValue] at hw
    split at hw
    · cases hw
      exact absurd (unplaced.symm.trans hblock) nofun
    · exact h.recorded hw hblock
  · intro id w block b hw hb
    rw [value?_pushValue] at hw
    split at hw
    · rename_i new
      cases hw
      rw [unplaced, if_neg nofun, List.count_eq_zero, new]
      exact nextValue_not_mem h hb
    · exact h.listed hw hb
  · intro block b id hb mem
    obtain ⟨w, hw⟩ := Option.isSome_iff_exists.mp (h.known hb mem)
    exact Option.isSome_iff_exists.mpr ⟨w, grows.value hw⟩
  · exact h.increasing
  · exact h.owner
  · exact h.owned
  · exact h.contained
  · exact fun hg => grows.value (h.address hg)
  · exact h.tabled
  · exact h.named
  · intro id instruction ty block? hw
    rw [value?_pushValue] at hw
    split at hw
    · rename_i new
      cases hw
      exact new ▸ operand_lt_nextValue (known instruction rfl)
    · exact h.operands hw

section Instruction

variable (builder) (instruction : Instruction) (ty : Ty)

theorem function?_pushInstruction (id : FunctionId) :
    (builder.pushInstruction instruction ty).2.module.function? id =
      builder.module.function? id := by
  simp only [pushInstruction]
  cases builder.block? <;> rfl

variable {builder instruction ty}

/-- A block after an instruction is the block before it, maybe with the new value at its end. -/
theorem of_block?_pushInstruction {current : BlockId} (position : builder.block? = some current)
    {block : BlockId} {b : Block}
    (hb : (builder.pushInstruction instruction ty).2.module.block? block = some b) :
    ∃ old, builder.module.block? block = some old ∧ b.function = old.function ∧
      b.instructions =
        old.instructions ++ if current = block then [builder.nextValue] else [] := by
  rw [builder.block?_pushInstruction position] at hb
  split at hb
  · rename_i here
    obtain ⟨old, hold, rfl⟩ := Option.map_eq_some_iff.mp hb
    exact ⟨old, hold, rfl, by rw [if_pos here]⟩
  · rename_i elsewhere
    exact ⟨b, hb, rfl, by rw [if_neg elsewhere, List.append_nil]⟩

/-- An instruction goes to the end of the block of the insertion point. -/
theorem wellFormed_placed (h : builder.module.WellFormed) {current : BlockId}
    (position : builder.block? = some current) (hasBlock : (builder.module.block? current).isSome)
    (known : ∀ operand ∈ instruction.operands, (builder.module.value? operand).isSome) :
    (builder.pushInstruction instruction ty).2.module.WellFormed := by
  have grows := builder.extends_pushInstruction instruction ty
  have value := builder.value?_pushInstruction instruction ty
  rw [position] at value
  constructor
  · intro id v block hv hblock
    rw [value] at hv
    split at hv
    · cases hv
      cases hblock
      exact ⟨⟨instruction, rfl⟩, grows.hasBlock hasBlock⟩
    · obtain ⟨isInstruction, found⟩ := h.recorded hv hblock
      exact ⟨isInstruction, grows.hasBlock found⟩
  · intro id v block b hv hb
    obtain ⟨old, hold, -, hb⟩ := of_block?_pushInstruction position hb
    rw [value] at hv
    rw [hb, List.count_append]
    split at hv
    · rename_i new
      cases hv
      rw [new, List.count_eq_zero.mpr (nextValue_not_mem h hold)]
      by_cases here : current = block <;> simp [here]
    · rename_i earlier
      rw [h.listed hv hold]
      by_cases here : current = block <;> simp [here, Ne.symm earlier]
  · intro block b id hb mem
    obtain ⟨old, hold, -, hb⟩ := of_block?_pushInstruction position hb
    rw [hb] at mem
    rcases List.mem_append.mp mem with mem | mem
    · obtain ⟨v, hv⟩ := Option.isSome_iff_exists.mp (h.known hold mem)
      exact Option.isSome_iff_exists.mpr ⟨v, grows.value hv⟩
    · split at mem
      · cases List.mem_singleton.mp mem
        rw [value, if_pos rfl]
        rfl
      · cases mem
  · intro block b hb
    obtain ⟨old, hold, -, hb⟩ := of_block?_pushInstruction position hb
    rw [hb]
    refine List.pairwise_append.mpr ⟨h.increasing hold, ?_, ?_⟩
    · split
      · exact List.pairwise_singleton _ _
      · exact .nil
    · intro id mem new hnew
      split at hnew
      · cases List.mem_singleton.mp hnew
        obtain ⟨v, hv⟩ := Option.isSome_iff_exists.mp (h.known hold mem)
        exact Module.lt_size_of_value? hv
      · cases hnew
  · intro block b hb
    obtain ⟨old, hold, same, -⟩ := of_block?_pushInstruction position hb
    rw [function?_pushInstruction, same]
    exact h.owner hold
  · intro block b id f hb hf
    obtain ⟨old, hold, same, -⟩ := of_block?_pushInstruction position hb
    rw [function?_pushInstruction] at hf
    rw [same]
    exact h.owned hold hf
  · intro id f block hf mem
    rw [function?_pushInstruction] at hf
    exact grows.hasBlock (h.contained hf mem)
  · intro id g hg
    rw [global?_pushInstruction] at hg
    exact grows.value (h.address hg)
  · rw [names_pushInstruction, Module.namedGlobals, globals_pushInstruction]
    exact h.tabled
  · intro name id
    rw [Module.globalNamed?, names_pushInstruction, global?_pushInstruction]
    exact h.named
  · intro id other found block? hv
    rw [value] at hv
    split at hv
    · rename_i new
      cases hv
      exact new ▸ operand_lt_nextValue known
    · exact h.operands hv

/-- Without an insertion point, an instruction is a value that no block takes. -/
theorem wellFormed_pushInstruction (h : builder.module.WellFormed)
    (position : ∀ {block}, builder.block? = some block → (builder.module.block? block).isSome)
    (known : ∀ operand ∈ instruction.operands, (builder.module.value? operand).isSome) :
    (builder.pushInstruction instruction ty).2.module.WellFormed := by
  cases hposition : builder.block? with
  | some block => exact wellFormed_placed h hposition (position hposition) known
  | none =>
    have same : (builder.pushInstruction instruction ty).2.module =
        (builder.pushValue ⟨.instruction instruction, ty, none⟩).2.module := by
      simp only [pushInstruction]
      rw [hposition]
      rfl
    rw [same]
    refine wellFormed_pushValue h rfl ?_
    rintro _ ⟨⟩
    exact known

end Instruction

end Builder

/-! ## Globals, functions and blocks -/

namespace Module

variable {module : Module}

/-- A new global goes into the name table and into the arena. -/
def pushGlobal (module : Module) (g : Global) : Module :=
  { module with
    names := (g.name, ⟨module.globals.size⟩) :: module.names
    globals := module.globals.push g }

theorem global?_pushGlobal (g : Global) (id : GlobalId) : (module.pushGlobal g).global? id =
    if id.index = module.globals.size then some g else module.global? id :=
  Array.getElem?_push

theorem globalNamed?_pushGlobal (g : Global) (name : String) :
    (module.pushGlobal g).globalNamed? name =
      if name = g.name then some ⟨module.globals.size⟩ else module.globalNamed? name := by
  simp only [globalNamed?, pushGlobal, List.lookup_cons]
  by_cases same : name = g.name
  · simp [same]
  · rw [if_neg same, beq_false_of_ne same]

/-- Table and arena stay in step. -/
theorem tabled_pushGlobal (tabled : module.names = module.namedGlobals) (g : Global) :
    (module.pushGlobal g).names = (module.pushGlobal g).namedGlobals := by
  simp [pushGlobal, namedGlobals, tabled]

theorem WellFormed.pushGlobal (h : module.WellFormed) {g : Global}
    (fresh : module.globalNamed? g.name = none)
    (address : module.value? g.address =
      some ⟨.globalAddress ⟨module.globals.size⟩, .pointerTo g.ty, none⟩) :
    (module.pushGlobal g).WellFormed := by
  constructor
  · exact h.recorded
  · exact h.listed
  · exact h.known
  · exact h.increasing
  · exact h.owner
  · exact h.owned
  · exact h.contained
  · intro id found hfound
    rw [global?_pushGlobal] at hfound
    split at hfound
    · rename_i new
      cases hfound
      rcases id with ⟨index⟩
      cases new
      exact address
    · exact h.address hfound
  · exact tabled_pushGlobal h.tabled g
  · intro name id
    rw [globalNamed?_pushGlobal, global?_pushGlobal]
    by_cases same : name = g.name
    · rw [if_pos same, Option.some_inj]
      constructor
      · rintro rfl
        exact ⟨g, if_pos rfl, same.symm⟩
      · rintro ⟨found, hfound, hname⟩
        split at hfound
        · rename_i new
          rcases id with ⟨index⟩
          cases new
          rfl
        · have known := h.named.mpr ⟨found, hfound, hname⟩
          rw [same, fresh] at known
          cases known
    · rw [if_neg same, h.named]
      constructor
      · rintro ⟨found, hfound, hname⟩
        have old := (Array.getElem?_eq_some_iff.mp hfound).1
        exact ⟨found, (if_neg (Nat.ne_of_lt old)).trans hfound, hname⟩
      · rintro ⟨found, hfound, hname⟩
        split at hfound
        · cases hfound
          exact absurd hname.symm same
        · exact ⟨found, hfound, hname⟩
  · exact h.operands

/-- A new function has no blocks. -/
theorem WellFormed.pushFunction (h : module.WellFormed) (name : String) :
    { module with functions := module.functions.push ⟨name, []⟩ }.WellFormed := by
  have function (id : FunctionId) :
      { module with functions := module.functions.push ⟨name, []⟩ }.function? id =
        if id.index = module.functions.size then some ⟨name, []⟩ else module.function? id :=
    Array.getElem?_push
  constructor
  · exact h.recorded
  · exact h.listed
  · exact h.known
  · exact h.increasing
  · intro block b hb
    obtain ⟨f, hf⟩ := Option.isSome_iff_exists.mp (h.owner hb)
    have old := (Array.getElem?_eq_some_iff.mp hf).1
    rw [function, if_neg (Nat.ne_of_lt old)]
    exact h.owner hb
  · intro block b id f hb hf
    rw [function] at hf
    split at hf
    · rename_i new
      cases hf
      obtain ⟨found, hfound⟩ := Option.isSome_iff_exists.mp (h.owner hb)
      have old := (Array.getElem?_eq_some_iff.mp hfound).1
      have other : b.function ≠ id := by
        rintro rfl
        exact Nat.ne_of_lt old new
      rw [if_neg other]
      rfl
    · exact h.owned hb hf
  · intro id f block hf mem
    rw [function] at hf
    split at hf
    · cases hf
      cases mem
    · exact h.contained hf mem
  · exact h.address
  · exact h.tabled
  · exact h.named
  · exact h.operands

end Module

namespace Builder

variable {builder : Builder}

theorem tabled_addGlobal? (tabled : builder.module.names = builder.module.namedGlobals)
    {name : String} {ty : Ty} {linkage : Linkage} {isConstant : Bool} {init? : Option Constant}
    {added : GlobalId × ValueId × Builder}
    (hadded : builder.addGlobal? name ty linkage isConstant init? = some added) :
    added.2.2.module.names = added.2.2.module.namedGlobals := by
  have pushed (v : Value) : (builder.pushValue v).2.module.names =
      (builder.pushValue v).2.module.namedGlobals := tabled
  rw [builder.addGlobal?_eq_some hadded]
  exact Module.tabled_pushGlobal (pushed _)
    ⟨name, ty, linkage, isConstant, init?, builder.nextValue⟩

/-- A new global is named as no other, and its address is a new value. -/
theorem wellFormed_addGlobal? (h : builder.module.WellFormed) {name : String} {ty : Ty}
    {linkage : Linkage} {isConstant : Bool} {init? : Option Constant}
    {added : GlobalId × ValueId × Builder}
    (hadded : builder.addGlobal? name ty linkage isConstant init? = some added) :
    added.2.2.module.WellFormed := by
  have fresh : builder.module.globalNamed? name = none := by
    unfold addGlobal? at hadded
    split at hadded
    · cases hadded
    · rename_i unnamed
      simpa using unnamed
  rw [builder.addGlobal?_eq_some hadded]
  have pushed := wellFormed_pushValue h
    (v := ⟨.globalAddress ⟨builder.module.globals.size⟩, .pointerTo ty, none⟩) rfl nofun
  exact pushed.pushGlobal (g := ⟨name, ty, linkage, isConstant, init?, builder.nextValue⟩) fresh
    ((builder.value?_pushValue _ _).trans (if_pos rfl))

section Block

variable {owner : FunctionId} {label : String}

def nextBlock (builder : Builder) : BlockId := ⟨builder.module.blocks.size⟩

theorem block?_appendBlock (block : BlockId) :
    (builder.appendBlock owner label).2.module.block? block =
      if block = builder.nextBlock then some ⟨owner, label, []⟩
      else builder.module.block? block := by
  rcases block with ⟨index⟩
  simp [appendBlock, Module.block?, nextBlock, Array.getElem?_push]

theorem block?_nextBlock : builder.module.block? builder.nextBlock = none := by
  simp [Module.block?, nextBlock]

theorem ne_nextBlock {block : BlockId} (hasBlock : (builder.module.block? block).isSome) :
    block ≠ builder.nextBlock := by
  rintro rfl
  rw [block?_nextBlock] at hasBlock
  cases hasBlock

/-- A function after a new block is the function before it, maybe with the block at its end. -/
theorem of_function?_appendBlock {function : FunctionId} {f : Function}
    (hf : (builder.appendBlock owner label).2.module.function? function = some f) :
    ∃ old, builder.module.function? function = some old ∧
      f.blocks = old.blocks ++ if owner = function then [builder.nextBlock] else [] := by
  rcases owner with ⟨owner⟩
  rcases function with ⟨index⟩
  change (builder.module.functions.modify owner _)[index]? = some f at hf
  rw [Array.getElem?_modify] at hf
  split at hf
  · rename_i here
    obtain ⟨old, hold, rfl⟩ := Option.map_eq_some_iff.mp hf
    exact ⟨old, hold, by rw [if_pos (congrArg FunctionId.mk here)]; rfl⟩
  · rename_i elsewhere
    refine ⟨f, hf, ?_⟩
    rw [if_neg (fun same => elsewhere (congrArg FunctionId.index same)), List.append_nil]

theorem isSome_function?_appendBlock {function : FunctionId}
    (hasFunction : (builder.module.function? function).isSome) :
    ((builder.appendBlock owner label).2.module.function? function).isSome := by
  change ((builder.module.functions.modify owner.index _)[function.index]?).isSome
  rw [Array.getElem?_modify]
  split
  · exact Option.isSome_map.trans hasFunction
  · exact hasFunction

/-- A new block is empty, and the last of its function. -/
theorem wellFormed_appendBlock (h : builder.module.WellFormed)
    (hasOwner : (builder.module.function? owner).isSome) (label : String) :
    (builder.appendBlock owner label).2.module.WellFormed := by
  have kept {block : BlockId} (hasBlock : (builder.module.block? block).isSome) :
      ((builder.appendBlock owner label).2.module.block? block).isSome := by
    rw [block?_appendBlock]
    split
    · rfl
    · exact hasBlock
  constructor
  · intro id v block hv hblock
    obtain ⟨isInstruction, hasBlock⟩ := h.recorded hv hblock
    exact ⟨isInstruction, kept hasBlock⟩
  · intro id v block b hv hb
    rw [block?_appendBlock] at hb
    split at hb
    · rename_i new
      cases hb
      have absent : v.block? ≠ some block := fun hblock => ne_nextBlock (h.recorded hv hblock).2 new
      rw [if_neg absent]
      rfl
    · exact h.listed hv hb
  · intro block b id hb mem
    rw [block?_appendBlock] at hb
    split at hb
    · cases hb
      cases mem
    · exact h.known hb mem
  · intro block b hb
    rw [block?_appendBlock] at hb
    split at hb
    · cases hb
      exact .nil
    · exact h.increasing hb
  · intro block b hb
    rw [block?_appendBlock] at hb
    split at hb
    · cases hb
      exact isSome_function?_appendBlock hasOwner
    · exact isSome_function?_appendBlock (h.owner hb)
  · intro block b function f hb hf
    obtain ⟨old, hold, hf⟩ := of_function?_appendBlock hf
    rw [block?_appendBlock] at hb
    rw [hf, List.count_append]
    split at hb
    · rename_i new
      cases hb
      have absent : old.blocks.count block = 0 :=
        List.count_eq_zero.mpr fun mem => ne_nextBlock (h.contained hold mem) new
      rw [absent]
      by_cases here : owner = function <;> simp [here, new]
    · rename_i earlier
      rw [h.owned hb hold]
      by_cases here : owner = function <;> simp [here, Ne.symm earlier]
  · intro function f block hf mem
    obtain ⟨old, hold, hf⟩ := of_function?_appendBlock hf
    rw [hf] at mem
    rcases List.mem_append.mp mem with mem | mem
    · exact kept (h.contained hold mem)
    · split at mem
      · cases List.mem_singleton.mp mem
        rw [block?_appendBlock, if_pos rfl]
        rfl
      · cases mem
  · exact h.address
  · exact h.tabled
  · exact h.named
  · exact h.operands

end Block

theorem wellFormed_createFunction (h : builder.module.WellFormed) (name : String) :
    (builder.createFunction name).2.2.module.WellFormed := by
  have created : ({ builder with module := { builder.module with
      functions := builder.module.functions.push ⟨name, []⟩ } } : Builder).module.WellFormed :=
    h.pushFunction name
  refine wellFormed_appendBlock created ?_ "entry"
  simp [Module.function?]

end Builder
end FormLowering
