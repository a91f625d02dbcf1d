import FormLowering.Code.Builder

/-!
Modules only grow. What a number stands for never changes, and a block keeps its instructions in
front of the new ones.
-/

namespace FormLowering

/-- What is new after one addition is what was added. -/
theorem eq_of_added {α : Type} {old later : Option α} {here : Prop} [Decidable here] {added a : α}
    (grown : later = if here then some added else old) (new : old = none)
    (found : later = some a) : a = added := by
  rw [grown] at found
  split at found
  · exact (Option.some.inj found).symm
  · cases new.symm.trans found

namespace Module

/-- The later module has everything of the earlier one under the same numbers. -/
structure Extends (before after : Module) : Prop where
  value : ∀ {id v}, before.value? id = some v → after.value? id = some v
  global : ∀ {id g}, before.global? id = some g → after.global? id = some g
  function : ∀ {id f}, before.function? id = some f → after.function? id = some f
  block : ∀ {id b}, before.block? id = some b →
    ∃ new, after.block? id = some { b with instructions := b.instructions ++ new }

theorem Extends.refl (module : Module) : module.Extends module :=
  ⟨id, id, id, fun {_ b} h => ⟨[], by simpa using h⟩⟩

theorem Extends.trans {a b c : Module} (hab : a.Extends b) (hbc : b.Extends c) : a.Extends c where
  value h := hbc.value (hab.value h)
  global h := hbc.global (hab.global h)
  function h := hbc.function (hab.function h)
  block h := by
    obtain ⟨new, h⟩ := hab.block h
    obtain ⟨newer, h⟩ := hbc.block h
    exact ⟨new ++ newer, by simpa using h⟩

theorem typeOf?_of_value? {module : Module} {id : ValueId} {v : Value}
    (h : module.value? id = some v) : module.typeOf? id = some v.ty := congrArg (·.map (·.ty)) h

theorem Extends.typeOf {before after : Module} (h : before.Extends after) {id : ValueId} {ty : Ty}
    (hty : before.typeOf? id = some ty) : after.typeOf? id = some ty := by
  obtain ⟨v, hv, rfl⟩ := Option.map_eq_some_iff.mp hty
  simp [typeOf?, h.value hv]

theorem Extends.hasBlock {before after : Module} (h : before.Extends after) {block : BlockId}
    (hb : (before.block? block).isSome) : (after.block? block).isSome := by
  obtain ⟨b, hb⟩ := Option.isSome_iff_exists.mp hb
  obtain ⟨new, hb⟩ := h.block hb
  exact Option.isSome_iff_exists.mpr ⟨_, hb⟩

theorem value?_eq_none_of_size_le {module : Module} {id : ValueId}
    (h : module.values.size ≤ id.index) : module.value? id = none := by
  simpa [value?] using h

theorem lt_size_of_value? {module : Module} {id : ValueId} {v : Value}
    (h : module.value? id = some v) : id.index < module.values.size := by
  apply Nat.lt_of_not_le
  intro hle
  rw [value?_eq_none_of_size_le hle] at h
  cases h

end Module

namespace Builder

variable (builder : Builder)

def nextValue : ValueId := ⟨builder.module.values.size⟩

@[simp] theorem value?_pushValue (v : Value) (id : ValueId) :
    (builder.pushValue v).2.module.value? id =
      if id = builder.nextValue then some v else builder.module.value? id := by
  rcases id with ⟨index⟩
  simp [pushValue, Module.value?, nextValue, Array.getElem?_push]

theorem extends_pushValue (v : Value) : builder.module.Extends (builder.pushValue v).2.module where
  value {id w} h := by
    have hne : id ≠ builder.nextValue := by
      rintro rfl
      exact Nat.lt_irrefl _ (Module.lt_size_of_value? h)
    rw [value?_pushValue, if_neg hne]
    exact h
  global h := h
  function h := h
  block {id b} h := by
    refine ⟨[], ?_⟩
    rw [List.append_nil]
    exact h

@[simp] theorem pushInstruction_fst (instruction : Instruction) (ty : Ty) :
    (builder.pushInstruction instruction ty).1 = builder.nextValue := by
  simp only [pushInstruction]
  cases builder.block? <;> rfl

/-- With an insertion point, an instruction is a new value and the last of its block. -/
theorem pushInstruction_snd {block : BlockId} (h : builder.block? = some block)
    (instruction : Instruction) (ty : Ty) :
    (builder.pushInstruction instruction ty).2 =
      let pushed := (builder.pushValue ⟨.instruction instruction, ty, some block⟩).2
      { pushed with module := { pushed.module with
          blocks := pushed.module.blocks.modify block.index fun b =>
            { b with instructions := b.instructions ++ [builder.nextValue] } } } := by
  simp only [pushInstruction]
  rw [h]
  rfl

theorem value?_pushInstruction (instruction : Instruction) (ty : Ty) (id : ValueId) :
    (builder.pushInstruction instruction ty).2.module.value? id =
      if id = builder.nextValue then some ⟨.instruction instruction, ty, builder.block?⟩
      else builder.module.value? id := by
  rw [← value?_pushValue]
  simp only [pushInstruction]
  cases builder.block? <;> rfl

theorem block?_pushInstruction {block : BlockId} (h : builder.block? = some block)
    (instruction : Instruction) (ty : Ty) (id : BlockId) :
    (builder.pushInstruction instruction ty).2.module.block? id =
      if block = id then (builder.module.block? id).map fun b =>
        { b with instructions := b.instructions ++ [builder.nextValue] }
      else builder.module.block? id := by
  rw [pushInstruction_snd builder h]
  rcases id with ⟨index⟩
  rcases block with ⟨current⟩
  simp [Module.block?, pushValue, Array.getElem?_modify]

@[simp] theorem global?_pushInstruction (instruction : Instruction) (ty : Ty) (id : GlobalId) :
    (builder.pushInstruction instruction ty).2.module.global? id = builder.module.global? id := by
  simp only [pushInstruction]
  cases builder.block? <;> rfl

theorem globals_pushInstruction (instruction : Instruction) (ty : Ty) :
    (builder.pushInstruction instruction ty).2.module.globals = builder.module.globals := by
  simp only [pushInstruction]
  cases builder.block? <;> rfl

theorem names_pushInstruction (instruction : Instruction) (ty : Ty) :
    (builder.pushInstruction instruction ty).2.module.names = builder.module.names := by
  simp only [pushInstruction]
  cases builder.block? <;> rfl

/-- The current function and the current block. -/
def point : Option FunctionId × Option BlockId := (builder.function?, builder.block?)

@[simp] theorem point_pushInstruction (instruction : Instruction) (ty : Ty) :
    (builder.pushInstruction instruction ty).2.point = builder.point := by
  simp only [point, pushInstruction, pushValue]
  cases h : builder.block? <;> simp [fault]

@[simp] theorem block_pushInstruction (instruction : Instruction) (ty : Ty) :
    (builder.pushInstruction instruction ty).2.block? = builder.block? :=
  congrArg Prod.snd (builder.point_pushInstruction instruction ty)

theorem extends_pushInstruction (instruction : Instruction) (ty : Ty) :
    builder.module.Extends (builder.pushInstruction instruction ty).2.module where
  value {id v} h := by
    have hne : id ≠ builder.nextValue := by
      rintro rfl
      exact Nat.lt_irrefl _ (Module.lt_size_of_value? h)
    rw [value?_pushInstruction, if_neg hne]
    exact h
  global h := (global?_pushInstruction ..).trans h
  function {id f} h := by
    simp only [pushInstruction]
    cases builder.block? <;> exact h
  block {id b} h := by
    cases hb : builder.block? with
    | none =>
      refine ⟨[], ?_⟩
      simp only [pushInstruction]
      rw [hb, List.append_nil]
      exact h
    | some block =>
      rw [block?_pushInstruction builder hb, h]
      split
      · exact ⟨_, rfl⟩
      · exact ⟨[], by simp⟩

theorem pointeeOf?_of_typeOf? {pointer : ValueId} {pointee : Ty} {isConst : Bool}
    (h : builder.module.typeOf? pointer = some (.pointer pointee isConst)) :
    builder.pointeeOf? pointer = some pointee := by
  simp only [pointeeOf?]
  rw [h]
  rfl

theorem load_of_typeOf? {pointer : ValueId} {pointee : Ty} {isConst : Bool}
    (h : builder.module.typeOf? pointer = some (.pointer pointee isConst)) :
    builder.load pointer = builder.pushInstruction (.load pointer) pointee := by
  simp only [load]
  rw [builder.pointeeOf?_of_typeOf? h]

theorem store_of_typeOf? {pointer : ValueId} {pointee : Ty} {isConst : Bool}
    (h : builder.module.typeOf? pointer = some (.pointer pointee isConst)) (value : ValueId) :
    builder.store value pointer = builder.pushInstruction (.store value pointer) .void := by
  simp only [store]
  rw [builder.pointeeOf?_of_typeOf? h]
  rfl

/-- A new global has the next number, and its address is the next value. -/
theorem addGlobal?_eq_some {name : String} {ty : Ty} {linkage : Linkage} {isConstant : Bool}
    {init? : Option Constant} {added : GlobalId × ValueId × Builder}
    (h : builder.addGlobal? name ty linkage isConstant init? = some added) :
    let id : GlobalId := ⟨builder.module.globals.size⟩
    let pushed := (builder.pushValue ⟨.globalAddress id, .pointerTo ty, none⟩).2
    added = (id, builder.nextValue, { pushed with module := { pushed.module with
      names := (name, id) :: builder.module.names
      globals := builder.module.globals.push
        ⟨name, ty, linkage, isConstant, init?, builder.nextValue⟩ } }) := by
  unfold addGlobal? at h
  split at h
  · cases h
  · exact (Option.some.inj h).symm

theorem value?_addGlobal? {name : String} {ty : Ty} {linkage : Linkage} {isConstant : Bool}
    {init? : Option Constant} {added : GlobalId × ValueId × Builder}
    (h : builder.addGlobal? name ty linkage isConstant init? = some added) (id : ValueId) :
    added.2.2.module.value? id =
      if id = added.2.1 then some ⟨.globalAddress added.1, .pointerTo ty, none⟩
      else builder.module.value? id := by
  rw [addGlobal?_eq_some builder h]
  exact builder.value?_pushValue _ id

theorem global?_addGlobal? {name : String} {ty : Ty} {linkage : Linkage} {isConstant : Bool}
    {init? : Option Constant} {added : GlobalId × ValueId × Builder}
    (h : builder.addGlobal? name ty linkage isConstant init? = some added) (id : GlobalId) :
    added.2.2.module.global? id =
      if id = added.1 then some ⟨name, ty, linkage, isConstant, init?, added.2.1⟩
      else builder.module.global? id := by
  rw [addGlobal?_eq_some builder h]
  rcases id with ⟨index⟩
  simp [Module.global?, Array.getElem?_push]

theorem globals_addGlobal? {name : String} {ty : Ty} {linkage : Linkage} {isConstant : Bool}
    {init? : Option Constant} {added : GlobalId × ValueId × Builder}
    (h : builder.addGlobal? name ty linkage isConstant init? = some added) :
    added.2.2.module.globals.toList =
      builder.module.globals.toList ++ [⟨name, ty, linkage, isConstant, init?, added.2.1⟩] := by
  rw [addGlobal?_eq_some builder h]
  simp

theorem extends_addGlobal? {name : String} {ty : Ty} {linkage : Linkage} {isConstant : Bool}
    {init? : Option Constant} {added : GlobalId × ValueId × Builder}
    (h : builder.addGlobal? name ty linkage isConstant init? = some added) :
    builder.module.Extends added.2.2.module := by
  rw [addGlobal?_eq_some builder h]
  have pushed := builder.extends_pushValue
    ⟨.globalAddress ⟨builder.module.globals.size⟩, .pointerTo ty, none⟩
  refine ⟨pushed.value, ?_, pushed.function, pushed.block⟩
  intro ⟨index⟩ g hg
  have hlt : index < builder.module.globals.size := (Array.getElem?_eq_some_iff.mp hg).1
  change (builder.module.globals.push _)[index]? = some g
  rw [Array.getElem?_push, if_neg (Nat.ne_of_lt hlt)]
  exact hg

@[simp] theorem point_addGlobal? {name : String} {ty : Ty} {linkage : Linkage} {isConstant : Bool}
    {init? : Option Constant} {added : GlobalId × ValueId × Builder}
    (h : builder.addGlobal? name ty linkage isConstant init? = some added) :
    added.2.2.point = builder.point := by
  rw [addGlobal?_eq_some builder h]
  rfl

/-- A new function has one empty block, and both have the next numbers. -/
theorem createFunction_eq (name : String) :
    builder.createFunction name =
      let id : FunctionId := ⟨builder.module.functions.size⟩
      let entry : BlockId := ⟨builder.module.blocks.size⟩
      (id, entry, { builder with
        function? := some id
        block? := some entry
        module := { builder.module with
          functions := builder.module.functions.push ⟨name, [entry]⟩
          blocks := builder.module.blocks.push ⟨id, "entry", []⟩ } }) := by
  have h : (builder.module.functions.push ⟨name, []⟩).modify builder.module.functions.size
      (fun f => { f with blocks := f.blocks ++ [⟨builder.module.blocks.size⟩] }) =
      builder.module.functions.push ⟨name, [⟨builder.module.blocks.size⟩]⟩ := by
    apply Array.ext_getElem?
    intro index
    rw [Array.getElem?_modify, Array.getElem?_push, Array.getElem?_push]
    by_cases hi : index = builder.module.functions.size
    · simp [hi]
    · simp [hi, Ne.symm hi]
  simp only [createFunction, appendBlock, position, h, Module.block?, Array.getElem?_push_size,
    Option.map_some]

theorem extends_createFunction (name : String) :
    builder.module.Extends (builder.createFunction name).2.2.module := by
  rw [createFunction_eq]
  refine ⟨id, id, ?_, ?_⟩
  · intro ⟨index⟩ f hf
    have hlt : index < builder.module.functions.size := (Array.getElem?_eq_some_iff.mp hf).1
    change (builder.module.functions.push _)[index]? = some f
    rw [Array.getElem?_push, if_neg (Nat.ne_of_lt hlt)]
    exact hf
  · intro ⟨index⟩ b hb
    have hlt : index < builder.module.blocks.size := (Array.getElem?_eq_some_iff.mp hb).1
    refine ⟨[], ?_⟩
    change (builder.module.blocks.push _)[index]? = _
    rw [Array.getElem?_push, if_neg (Nat.ne_of_lt hlt), List.append_nil]
    exact hb

/-! ## The insertion point -/

/-- The next instruction goes to the end of the block, in the function of the block. -/
structure At (block : BlockId) : Prop where
  position : builder.block? = some block
  current : builder.function? = (builder.module.block? block).map (·.function)

variable {builder} {block : BlockId}

theorem at_position : (builder.position block).At block := ⟨rfl, rfl⟩

/-- Moving to where the insertion point is changes nothing. -/
theorem At.positioned (h : builder.At block) : builder.position block = builder := by
  simp only [Builder.position]
  rw [← h.current, ← h.position]

/-- An instruction leaves the block in its function. -/
theorem At.pushInstruction (h : builder.At block) (instruction : Instruction) (ty : Ty) :
    (builder.pushInstruction instruction ty).2.At block := by
  refine ⟨(builder.block_pushInstruction instruction ty).trans h.position, ?_⟩
  calc (builder.pushInstruction instruction ty).2.function?
    _ = builder.function? := congrArg Prod.fst (builder.point_pushInstruction instruction ty)
    _ = (builder.module.block? block).map (·.function) := h.current
    _ = ((builder.pushInstruction instruction ty).2.module.block? block).map (·.function) := by
      rw [block?_pushInstruction builder h.position, if_pos rfl, Option.map_map]
      rfl

theorem At.load (h : builder.At block) (pointer : ValueId) : (builder.load pointer).2.At block := by
  have faulty : builder.fault.At block := ⟨h.position, h.current⟩
  simp only [Builder.load]
  split
  · exact h.pushInstruction _ _
  · exact faulty.pushInstruction _ _

/-- So does all that keeps what the module has. -/
theorem At.later (h : builder.At block) (hasBlock : (builder.module.block? block).isSome)
    {later : Builder} (grows : builder.module.Extends later.module)
    (point : later.point = builder.point) : later.At block := by
  obtain ⟨b, hb⟩ := Option.isSome_iff_exists.mp hasBlock
  obtain ⟨new, hlater⟩ := grows.block hb
  refine ⟨(congrArg Prod.snd point).trans h.position, ?_⟩
  calc later.function? = builder.function? := congrArg Prod.fst point
    _ = some b.function := by rw [h.current, hb, Option.map_some]
    _ = (later.module.block? block).map (·.function) := by rw [hlater, Option.map_some]

end Builder
end FormLowering
