import FormLowering.Proofs.Code.WellFormed

/-!
Construction of modules. Whatever a builder is asked to do with numbers that exist, and wherever
its insertion point jumps, it leaves a well-formed module, and its faults are the instructions
without a block and the accesses through no pointer.
-/

namespace FormLowering

namespace Value

/-- An instruction that stands in no block. -/
def isUnplaced (v : Value) : Bool :=
  match v.kind with
  | .instruction _ => v.block?.isNone
  | _ => false

end Value

namespace Module

/-- A load or a store through something that is no pointer. -/
def isMisdirected (module : Module) (v : Value) : Bool :=
  match v.kind with
  | .instruction (.load pointer) | .instruction (.store _ pointer) =>
    !(module.typeOf? pointer).any Ty.isPointer
  | _ => false

/-- The faults of a module; an instruction with both of them counts twice. -/
def faults (module : Module) : Nat :=
  module.values.countP Value.isUnplaced + module.values.countP module.isMisdirected

variable {module later : Module}

/-- Types of operands are settled when an instruction is made. -/
theorem isMisdirected_of_kept (kept : ∀ {id v}, module.value? id = some v → later.value? id = some v)
    {v : Value} (known : ∀ instruction, v.kind = .instruction instruction →
      ∀ operand ∈ instruction.operands, (module.value? operand).isSome) :
    later.isMisdirected v = module.isMisdirected v := by
  have same {operand : ValueId} (known : (module.value? operand).isSome) :
      later.typeOf? operand = module.typeOf? operand := by
    obtain ⟨w, hw⟩ := Option.isSome_iff_exists.mp known
    simp only [typeOf?]
    rw [kept hw, hw]
  rcases v with ⟨kind, ty, block?⟩
  cases kind with
  | constant | globalAddress => rfl
  | instruction instruction =>
    have known := known instruction rfl
    cases instruction with
    | alloca | gep => rfl
    | load pointer => simp only [isMisdirected, same (known pointer (by simp [Instruction.operands]))]
    | store value pointer =>
      simp only [isMisdirected, same (known pointer (by simp [Instruction.operands]))]

theorem WellFormed.operand_known (h : module.WellFormed) {id : ValueId} {v : Value}
    (hv : module.value? id = some v) {instruction : Instruction}
    (kind : v.kind = .instruction instruction) :
    ∀ operand ∈ instruction.operands, (module.value? operand).isSome := by
  intro operand mem
  rcases v with ⟨_, ty, block?⟩
  cases kind
  have before := h.operands hv operand mem
  have bound := Nat.lt_trans before (lt_size_of_value? hv)
  simp [value?, bound]

/-- A new value brings its own faults. -/
theorem WellFormed.faults_push (h : module.WellFormed) {v : Value}
    (values : later.values = module.values.push v)
    (known : ∀ instruction, v.kind = .instruction instruction →
      ∀ operand ∈ instruction.operands, (module.value? operand).isSome) :
    later.faults = module.faults + (if v.isUnplaced then 1 else 0) +
      (if module.isMisdirected v then 1 else 0) := by
  have kept {id : ValueId} {w : Value} (hw : module.value? id = some w) :
      later.value? id = some w := by
    have old := (Array.getElem?_eq_some_iff.mp hw).1
    simp only [value?]
    rw [values, Array.getElem?_push, if_neg (Nat.ne_of_lt old)]
    exact hw
  have old : module.values.countP later.isMisdirected = module.values.countP module.isMisdirected := by
    apply Array.countP_congr
    intro w mem
    obtain ⟨index, found⟩ := Array.mem_iff_getElem?.mp mem
    have hw : module.value? ⟨index⟩ = some w := found
    rw [isMisdirected_of_kept kept fun _ => h.operand_known hw]
  simp only [faults]
  rw [values, Array.countP_push, Array.countP_push, old, isMisdirected_of_kept kept known]
  omega

end Module

namespace Builder

/-! ## Edits -/

/-- What a builder can be asked to do. -/
inductive Edit where
  | createFunction (name : String)
  | appendBlock (function : FunctionId) (label : String)
  | position (block : BlockId)
  | constant (ty : Ty) (constant : Constant)
  | addGlobal (name : String) (ty : Ty) (linkage : Linkage) (isConstant : Bool)
    (init? : Option Constant)
  | alloca (ty : Ty) (name : String)
  | load (pointer : ValueId)
  | store (value pointer : ValueId)
  | gep (pointer : ValueId) (indices : List Nat) (ty : Ty)

/-- The builder after an edit; a second global of a name is refused. -/
def edit (builder : Builder) : Edit → Builder
  | .createFunction name => (builder.createFunction name).2.2
  | .appendBlock function label => (builder.appendBlock function label).2
  | .position block => builder.position block
  | .constant ty constant => (builder.constant ty constant).2
  | .addGlobal name ty linkage isConstant init? =>
    match builder.addGlobal? name ty linkage isConstant init? with
    | some added => added.2.2
    | none => builder
  | .alloca ty name => (builder.alloca ty name).2
  | .load pointer => (builder.load pointer).2
  | .store value pointer => (builder.store value pointer).2
  | .gep pointer indices ty => (builder.gep pointer indices ty).2

/-- What the edit refers to exists. -/
def Edit.Known (module : Module) : Edit → Prop
  | .appendBlock function _ => (module.function? function).isSome
  | .position block => (module.block? block).isSome
  | .load pointer | .gep pointer _ _ => (module.value? pointer).isSome
  | .store value pointer => (module.value? value).isSome ∧ (module.value? pointer).isSome
  | _ => True

/-- The function that an edit makes the current one, if it moves the insertion point. -/
def Edit.entered? (module : Module) : Edit → Option FunctionId
  | .createFunction _ => some ⟨module.functions.size⟩
  | .position block => (module.block? block).map (·.function)
  | _ => none

def edits (builder : Builder) (list : List Edit) : Builder := list.foldl edit builder

/-- Every edit refers to what exists when it is made. -/
def Edit.AllKnown : Builder → List Edit → Prop
  | _, [] => True
  | builder, edit :: rest => edit.Known builder.module ∧ AllKnown (builder.edit edit) rest

/-- The function that was made the current one last. -/
def Edit.lastEntered? : Builder → (current? : Option FunctionId) → List Edit → Option FunctionId
  | _, current?, [] => current?
  | builder, current?, edit :: rest =>
    lastEntered? (builder.edit edit) ((edit.entered? builder.module).or current?) rest

/-- The module is well formed, the insertion point is a block of it and in the function of that
block, and the faults are counted. -/
structure Consistent (builder : Builder) : Prop where
  module : builder.module.WellFormed
  position : ∀ {block}, builder.block? = some block → (builder.module.block? block).isSome
  current : ∀ {block}, builder.block? = some block → builder.At block
  faults : builder.faults = builder.module.faults

variable {builder : Builder}

theorem consistent_ofName (name : String) : (Builder.ofName name).Consistent where
  module := Module.wellFormed_empty name
  position := nofun
  current := nofun
  faults := rfl

/-- An instruction is a fault if there is no insertion point. -/
theorem faults_pushInstruction (instruction : Instruction) (ty : Ty) :
    (builder.pushInstruction instruction ty).2.faults =
      builder.faults + if builder.block?.isNone then 1 else 0 := by
  simp only [pushInstruction]
  cases builder.block? <;> rfl

theorem values_pushInstruction (instruction : Instruction) (ty : Ty) :
    (builder.pushInstruction instruction ty).2.module.values =
      builder.module.values.push ⟨.instruction instruction, ty, builder.block?⟩ := by
  simp only [pushInstruction]
  cases builder.block? <;> rfl

/-- A fault that was counted before makes no difference to the code. -/
theorem module_pushInstruction_fault (builder : Builder) (instruction : Instruction) (ty : Ty) :
    (builder.fault.pushInstruction instruction ty).2.module =
      (builder.pushInstruction instruction ty).2.module := by
  simp only [pushInstruction, fault]
  cases builder.block? <;> rfl

theorem module_load (builder : Builder) (pointer : ValueId) :
    ∃ ty, (builder.load pointer).2.module =
      (builder.pushInstruction (.load pointer) ty).2.module := by
  simp only [load]
  split
  · exact ⟨_, rfl⟩
  · exact ⟨.void, builder.module_pushInstruction_fault _ _⟩

theorem module_store (builder : Builder) (value pointer : ValueId) :
    (builder.store value pointer).2.module =
      (builder.pushInstruction (.store value pointer) .void).2.module := by
  simp only [store]
  split
  · rfl
  · exact builder.module_pushInstruction_fault _ _

theorem extends_load (pointer : ValueId) :
    builder.module.Extends (builder.load pointer).2.module := by
  obtain ⟨ty, same⟩ := builder.module_load pointer
  rw [same]
  exact builder.extends_pushInstruction _ _

theorem extends_store (value pointer : ValueId) :
    builder.module.Extends (builder.store value pointer).2.module := by
  rw [builder.module_store]
  exact builder.extends_pushInstruction _ _

/-- An instruction that is made after the faults of its pointer were counted. -/
theorem Consistent.instruction (h : builder.Consistent) (counted : Builder)
    (same : counted.module = builder.module) (point : counted.point = builder.point)
    {instruction : Instruction} {ty : Ty}
    (known : ∀ operand ∈ instruction.operands, (builder.module.value? operand).isSome)
    (faults : counted.faults = builder.faults +
      if builder.module.isMisdirected ⟨.instruction instruction, ty, builder.block?⟩ then 1 else 0) :
    (counted.pushInstruction instruction ty).2.Consistent := by
  have block : counted.block? = builder.block? := congrArg Prod.snd point
  have grows : builder.module.Extends (counted.pushInstruction instruction ty).2.module :=
    same ▸ counted.extends_pushInstruction instruction ty
  constructor
  · refine wellFormed_pushInstruction (same ▸ h.module) ?_ (same ▸ known)
    rw [same, block]
    exact h.position
  · intro other hother
    rw [block_pushInstruction, block] at hother
    exact grows.hasBlock (h.position hother)
  · intro other hother
    rw [block_pushInstruction, block] at hother
    exact (h.current hother).later (h.position hother) grows
      ((counted.point_pushInstruction instruction ty).trans point)
  · have values := counted.values_pushInstruction instruction ty
    rw [same, block] at values
    rw [faults_pushInstruction, faults, h.faults, block, h.module.faults_push values]
    · exact Nat.add_right_comm _ _ _
    · rintro _ ⟨⟩
      exact known

theorem pointeeOf?_isSome (builder : Builder) (pointer : ValueId) :
    (builder.pointeeOf? pointer).isSome = (builder.module.typeOf? pointer).any Ty.isPointer := by
  simp only [pointeeOf?]
  cases builder.module.typeOf? pointer <;> rfl

theorem Consistent.load (h : builder.Consistent) {pointer : ValueId}
    (known : (builder.module.value? pointer).isSome) : (builder.load pointer).2.Consistent := by
  have operands : ∀ operand ∈ (Instruction.load pointer).operands,
      (builder.module.value? operand).isSome := by simpa [Instruction.operands] using known
  have directed := builder.pointeeOf?_isSome pointer
  simp only [Builder.load]
  cases hpointee : builder.pointeeOf? pointer with
  | some ty =>
    rw [hpointee] at directed
    refine h.instruction builder rfl rfl operands ?_
    simp [Module.isMisdirected, ← directed]
  | none =>
    rw [hpointee] at directed
    refine h.instruction builder.fault rfl rfl operands ?_
    simp [Module.isMisdirected, ← directed, fault]

theorem Consistent.store (h : builder.Consistent) {value pointer : ValueId}
    (knownValue : (builder.module.value? value).isSome)
    (knownPointer : (builder.module.value? pointer).isSome) :
    (builder.store value pointer).2.Consistent := by
  have operands : ∀ operand ∈ (Instruction.store value pointer).operands,
      (builder.module.value? operand).isSome := by
    simpa [Instruction.operands] using ⟨knownValue, knownPointer⟩
  have directed := builder.pointeeOf?_isSome pointer
  simp only [Builder.store]
  split
  · rename_i isPointer
    refine h.instruction builder rfl rfl operands ?_
    simp [Module.isMisdirected, ← directed, isPointer]
  · rename_i noPointer
    refine h.instruction builder.fault rfl rfl operands ?_
    simp [Module.isMisdirected, ← directed, noPointer, fault]

/-- A value that is no instruction is no fault. -/
theorem Consistent.pushValue (h : builder.Consistent) {v : Value}
    (fixed : ∀ instruction, v.kind ≠ .instruction instruction) (unplaced : v.block? = none) :
    (builder.pushValue v).2.Consistent where
  module := wellFormed_pushValue h.module unplaced fun _ kind => absurd kind (fixed _)
  position := h.position
  current hblock := (h.current hblock).later (h.position hblock) (builder.extends_pushValue _) rfl
  faults := by
    rw [h.module.faults_push rfl fun _ kind => absurd kind (fixed _), ← h.faults]
    rcases v with ⟨kind, ty, block?⟩
    cases kind with
    | constant | globalAddress => rfl
    | instruction instruction => exact absurd rfl (fixed instruction)

/-- What leaves the values alone makes no faults. -/
theorem Consistent.same (h : builder.Consistent) {later : Builder}
    (wellFormed : later.module.WellFormed)
    (values : later.module.values = builder.module.values)
    (position : ∀ {block}, later.block? = some block →
      (later.module.block? block).isSome ∧ later.At block)
    (faults : later.faults = builder.faults) : later.Consistent where
  module := wellFormed
  position hblock := (position hblock).1
  current hblock := (position hblock).2
  faults := by
    have misdirected : later.module.isMisdirected = builder.module.isMisdirected := by
      funext v
      simp only [Module.isMisdirected, Module.typeOf?, Module.value?, values]
    rw [faults, h.faults, Module.faults, Module.faults, misdirected, values]

/-- Every edit of what exists keeps a builder consistent. -/
theorem Consistent.edit (h : builder.Consistent) {edit : Edit} (known : edit.Known builder.module) :
    (builder.edit edit).Consistent := by
  cases edit with
  | createFunction name =>
    refine h.same (wellFormed_createFunction h.module name) ?_ ?_ ?_
    · simp only [Builder.edit]
      rw [createFunction_eq]
    · intro block hblock
      simp only [Builder.edit] at hblock ⊢
      rw [createFunction_eq] at hblock ⊢
      cases hblock
      exact ⟨by simp [Module.block?], rfl, by simp [Module.block?]⟩
    · rfl
  | appendBlock function label =>
    refine h.same (wellFormed_appendBlock h.module known label) rfl ?_ rfl
    intro block hblock
    have hasBlock := h.position hblock
    have same : (builder.appendBlock function label).2.module.block? block =
        builder.module.block? block := by
      rw [block?_appendBlock, if_neg (ne_nextBlock hasBlock)]
    exact ⟨same ▸ hasBlock, hblock, same ▸ (h.current hblock).current⟩
  | position block =>
    refine h.same h.module rfl ?_ rfl
    rintro _ ⟨⟩
    exact ⟨known, at_position⟩
  | constant ty constant => exact h.pushValue (fun _ same => by cases same) rfl
  | addGlobal name ty linkage isConstant init? =>
    simp only [Builder.edit]
    split
    · rename_i added hadded
      have wellFormed := wellFormed_addGlobal? h.module hadded
      rw [builder.addGlobal?_eq_some hadded] at wellFormed ⊢
      have pushed := h.pushValue
        (v := ⟨.globalAddress ⟨builder.module.globals.size⟩, .pointerTo ty, none⟩)
        (fun _ same => by cases same) rfl
      exact pushed.same wellFormed rfl
        (fun hblock => ⟨pushed.position hblock, hblock, (pushed.current hblock).current⟩) rfl
    · exact h
  | alloca ty name =>
    exact h.instruction builder rfl rfl (by simp [Instruction.operands]) rfl
  | load pointer => exact h.load known
  | store value pointer => exact h.store known.1 known.2
  | gep pointer indices ty =>
    refine h.instruction builder rfl rfl ?_ rfl
    intro operand mem
    cases List.mem_singleton.mp mem
    exact known

theorem Consistent.edits (h : builder.Consistent) {list : List Edit}
    (known : Edit.AllKnown builder list) : (builder.edits list).Consistent := by
  induction list generalizing builder with
  | nil => exact h
  | cons edit rest ih => exact ih (h.edit known.1) known.2

/-! ## The current function -/

theorem point_load (pointer : ValueId) : (builder.load pointer).2.point = builder.point := by
  simp only [load]
  split
  · exact builder.point_pushInstruction _ _
  · exact builder.fault.point_pushInstruction _ _

theorem point_store (value pointer : ValueId) :
    (builder.store value pointer).2.point = builder.point := by
  simp only [store]
  split
  · exact builder.point_pushInstruction _ _
  · exact builder.fault.point_pushInstruction _ _

/-- The current function is the one that was entered, until another one is. -/
theorem function?_edit {edit : Edit} (known : edit.Known builder.module) :
    (builder.edit edit).function? = (edit.entered? builder.module).or builder.function? := by
  cases edit with
  | createFunction name =>
    simp only [Builder.edit]
    rw [createFunction_eq]
    rfl
  | position block =>
    obtain ⟨b, hb⟩ := Option.isSome_iff_exists.mp known
    simp [Builder.edit, Builder.position, Edit.entered?, hb]
  | appendBlock function label => rfl
  | constant ty constant => rfl
  | addGlobal name ty linkage isConstant init? =>
    simp only [Builder.edit]
    split
    · rename_i added hadded
      exact congrArg Prod.fst (builder.point_addGlobal? hadded)
    · rfl
  | alloca ty name => exact congrArg Prod.fst (builder.point_pushInstruction _ _)
  | load pointer => exact congrArg Prod.fst (builder.point_load pointer)
  | store value pointer => exact congrArg Prod.fst (builder.point_store value pointer)
  | gep pointer indices ty => exact congrArg Prod.fst (builder.point_pushInstruction _ _)

theorem function?_edits {list : List Edit} (known : Edit.AllKnown builder list) :
    (builder.edits list).function? = Edit.lastEntered? builder builder.function? list := by
  induction list generalizing builder with
  | nil => rfl
  | cons edit rest ih =>
    rw [Edit.lastEntered?, ← function?_edit known.1]
    exact ih known.2

/-! ## Every construction -/

/-- However a module is built, it is well formed, the name table leads from a name to the one global
that has it, the current function is that of the current block and the one entered last, and the
faults are the instructions without a block and the accesses through no pointer. -/
theorem construction_wellFormed (name : String) (list : List Edit)
    (known : Edit.AllKnown (.ofName name) list) :
    let builder := (Builder.ofName name).edits list
    builder.module.WellFormed ∧
      (∀ block, builder.block? = some block →
        ∃ b, builder.module.block? block = some b ∧ builder.function? = some b.function) ∧
      builder.function? = Edit.lastEntered? (.ofName name) none list ∧
      builder.faults = builder.module.values.countP Value.isUnplaced +
        builder.module.values.countP builder.module.isMisdirected := by
  intro builder
  have consistent : builder.Consistent := (consistent_ofName name).edits known
  refine ⟨consistent.module, ?_, function?_edits known, consistent.faults⟩
  intro block hblock
  obtain ⟨b, hb⟩ := Option.isSome_iff_exists.mp (consistent.position hblock)
  exact ⟨b, hb, by rw [(consistent.current hblock).current, hb, Option.map_some]⟩

/-- A slot and a read through a constant before there is a block make three faults; then the
insertion point goes back to a block of the first function, and a second global of a name is
refused. -/
theorem faulty_construction_wellFormed :
    let list : List Edit :=
      [.alloca .char "orphan", .constant .char (.int 8 65), .load ⟨1⟩, .createFunction "f",
        .appendBlock ⟨0⟩ "exit", .createFunction "g", .position ⟨1⟩, .alloca .char "x",
        .store ⟨1⟩ ⟨3⟩, .addGlobal "s" .char .internal false none,
        .addGlobal "s" .bool .external true none]
    let builder := (Builder.ofName "m").edits list
    builder.faults = 3 ∧ builder.function? = some ⟨0⟩ ∧ builder.module.globals.size = 1 ∧
      builder.module.WellFormed := by
  intro list builder
  have known : Edit.AllKnown (.ofName "m") list :=
    ⟨trivial, trivial, rfl, trivial, rfl, trivial, rfl, trivial, ⟨rfl, rfl⟩, trivial, trivial,
      trivial⟩
  obtain ⟨wellFormed, -, entered, faults⟩ := construction_wellFormed "m" list known
  have counted : builder.module.values.countP Value.isUnplaced +
      builder.module.values.countP builder.module.isMisdirected = 3 := by decide +kernel
  have refused : builder.module.globals.size = 1 := by decide +kernel
  exact ⟨faults.trans counted, entered.trans rfl, refused, wellFormed⟩

end Builder
end FormLowering
