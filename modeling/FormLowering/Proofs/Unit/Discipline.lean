import FormLowering.Proofs.Code.Order
import FormLowering.Proofs.Typing.Reachable

/-!
Units that are built one routine after the other. If no scope is open when a routine is entered,
and declarations and evaluations go to the entry block of the latest routine, then in every block
each instruction comes after its operands.
-/

namespace FormLowering

/-- The operation keeps to the routine that was entered last, whose entry block is given. -/
def Operation.Disciplined (unit : CompilationUnit) (current? : Option BlockId) : Operation → Prop
  | .enterFunction _ => unit.scopes.scopes = []
  | .declareLocal _ _ => current?.isSome
  | .evaluate _ request => current? = some request.block
  | _ => True

instance (unit : CompilationUnit) (current? : Option BlockId) :
    (operation : Operation) → Decidable (operation.Disciplined unit current?)
  | .enterFunction _ => inferInstanceAs (Decidable (unit.scopes.scopes = []))
  | .declareLocal _ _ => inferInstanceAs (Decidable (current?.isSome = true))
  | .evaluate _ request => inferInstanceAs (Decidable (current? = some request.block))
  | .declareStruct _ | .defineStruct .. | .defineEnum .. | .pushScope | .popScope
  | .declareGlobal .. | .parseType _ | .alignment _ | .size _ | .fieldOffset .. | .fail ..
  | .rollback _ => .isTrue trivial

/-- The entry block of the latest routine after an operation. -/
def Operation.entry? (unit : CompilationUnit) (current? : Option BlockId) :
    Operation → Option BlockId
  | .enterFunction name => some (unit.enterFunction name).1
  | _ => current?

/-- The units that are built one routine after the other, with the entry block of the latest. -/
inductive Disciplined : CompilationUnit → Option BlockId → Prop
  | new (name : String) (target : Target) (limit : Nat) : Disciplined (.new name target limit) none
  | perform {unit : CompilationUnit} {current? : Option BlockId} (operation : Operation) :
      Disciplined unit current? → operation.Disciplined unit current? →
      Disciplined (unit.perform operation) (operation.entry? unit current?)

namespace CompilationUnit

/-- Every block has its instructions in order, all that was placed in a block is in its list, and
the visible slots are in the current block, which takes the next instruction. -/
structure Arranged (unit : CompilationUnit) (current? : Option BlockId) : Prop where
  typed : unit.Typed
  ordered : ∀ {block b}, unit.module.block? block = some b → unit.module.Ordered [] b.instructions
  placed : ∀ {id v block}, unit.module.value? id = some v → v.block? = some block →
    ∃ b, unit.module.block? block = some b ∧ id ∈ b.instructions
  locals : ∀ {x}, unit.IsLocal x → ∃ block v, current? = some block ∧
    unit.module.value? x.storage = some v ∧ v.block? = some block
  current : ∀ {block}, current? = some block → unit.HasBlock block ∧ unit.builder.At block

variable {unit later : CompilationUnit} {current? : Option BlockId}

/-- What places nothing in a block keeps the arrangement. -/
theorem Arranged.keep (h : unit.Arranged current?) (typed : later.Typed)
    (hm : unit.module.Extends later.module)
    (blocks : ∀ block, later.module.block? block = unit.module.block? block)
    (values : ∀ {id v block}, later.module.value? id = some v → v.block? = some block →
      unit.module.value? id = some v)
    (locals : ∀ {x}, later.IsLocal x → unit.IsLocal x)
    (point : later.builder.point = unit.builder.point) : later.Arranged current? where
  typed := typed
  ordered hb := (h.ordered ((blocks _).symm.trans hb)).mono hm
  placed hv hblock := by
    obtain ⟨b, hb, hid⟩ := h.placed (values hv hblock) hblock
    exact ⟨b, (blocks _).trans hb, hid⟩
  locals hx := by
    obtain ⟨block, v, hcurrent, hv, hblock⟩ := h.locals (locals hx)
    exact ⟨block, v, hcurrent, hm.value hv, hblock⟩
  current hcurrent := by
    obtain ⟨hasBlock, here⟩ := h.current hcurrent
    exact ⟨hm.hasBlock hasBlock, here.later hasBlock hm point⟩

/-- Tables that hold no code do not matter. -/
theorem Arranged.same (h : unit.Arranged current?) (typed : later.Typed)
    (builder : later.builder = unit.builder)
    (locals : ∀ {x}, later.IsLocal x → unit.IsLocal x) : later.Arranged current? := by
  have hm : later.module = unit.module := congrArg Builder.module builder
  refine h.keep typed (hm ▸ .refl _) (fun block => congrArg (Module.block? · block) hm) ?_ locals ?_
  · intro id v block hv _
    rw [← hm]
    exact hv
  · rw [builder]

/-- An instruction at the end of the current block keeps the arrangement, if its operands are
there; it may be the slot of a new variable. -/
theorem Arranged.emit {block : BlockId} (h : unit.Arranged (some block)) {instruction : Instruction}
    {ty : Ty} (operands : ∀ operand ∈ instruction.operands, unit.Available block operand)
    (typed : later.Typed) (builder : later.builder = (unit.builder.pushInstruction instruction ty).2)
    (locals : ∀ {x}, later.IsLocal x → unit.IsLocal x ∨ x.storage = unit.builder.nextValue) :
    later.Arranged (some block) := by
  obtain ⟨hasBlock, here⟩ := h.current rfl
  have position := here.position
  have hm : later.module = (unit.builder.pushInstruction instruction ty).2.module :=
    congrArg Builder.module builder
  have grows : unit.module.Extends later.module :=
    hm ▸ unit.builder.extends_pushInstruction instruction ty
  have hblock := unit.builder.block?_pushInstruction position instruction ty
  have hvalue := unit.builder.value?_pushInstruction instruction ty
  rw [← hm] at hblock hvalue
  have hnew : later.module.value? unit.builder.nextValue =
      some ⟨.instruction instruction, ty, some block⟩ := by
    rw [hvalue, if_pos rfl, position]
  obtain ⟨current, hcurrent⟩ := Option.isSome_iff_exists.mp hasBlock
  have hcurrent' : later.module.block? block =
      some { current with instructions := current.instructions ++ [unit.builder.nextValue] } := by
    rw [hblock, if_pos rfl]
    exact congrArg (Option.map _) hcurrent
  constructor
  · exact typed
  · intro other b hb
    by_cases same : block = other
    · subst same
      cases hcurrent'.symm.trans hb
      apply ((h.ordered hcurrent).mono grows).append hnew
      intro operand hoperand
      obtain ⟨v, hv, how⟩ := operands operand hoperand
      rcases how with fixed | placed | ⟨x, hx, rfl⟩
      · exact .inl ⟨v, grows.value hv, fixed⟩
      · obtain ⟨found, hfound, hid⟩ := h.placed hv placed
        cases hcurrent.symm.trans hfound
        exact .inr (.inr hid)
      · obtain ⟨_, slot, same, hslot, placed⟩ := h.locals hx
        cases same
        obtain ⟨found, hfound, hid⟩ := h.placed hslot placed
        cases hcurrent.symm.trans hfound
        exact .inr (.inr hid)
    · rw [hblock, if_neg same] at hb
      exact (h.ordered hb).mono grows
  · intro id v other hv hplaced
    rw [hvalue] at hv
    split at hv
    · rename_i new
      cases hv
      cases position.symm.trans hplaced
      exact ⟨_, hcurrent', by simp [new]⟩
    · obtain ⟨b, hb, hid⟩ := h.placed hv hplaced
      obtain ⟨new, hb'⟩ := grows.block hb
      exact ⟨_, hb', by simp [hid]⟩
  · intro x hx
    rcases locals hx with old | new
    · obtain ⟨other, v, hother, hv, hplaced⟩ := h.locals old
      exact ⟨other, v, hother, grows.value hv, hplaced⟩
    · exact ⟨block, _, rfl, new ▸ hnew, rfl⟩
  · intro other hother
    cases hother
    refine ⟨grows.hasBlock hasBlock, ?_⟩
    rw [builder]
    exact here.pushInstruction instruction ty

theorem Arranged.addGlobal (h : unit.Arranged current?) {name : String} {ty : Ty}
    {linkage : Linkage} {isConstant : Bool} {init? : Option Constant}
    {added : GlobalId × ValueId × Builder}
    (hadded : unit.builder.addGlobal? name ty linkage isConstant init? = some added)
    (typed : later.Typed) (builder : later.builder = added.2.2)
    (locals : ∀ {x}, later.IsLocal x → unit.IsLocal x) : later.Arranged current? := by
  have hm : later.module = added.2.2.module := congrArg Builder.module builder
  refine h.keep typed (hm ▸ unit.builder.extends_addGlobal? hadded) ?_ ?_ locals ?_
  · intro block
    rw [hm, unit.builder.addGlobal?_eq_some hadded]
    rfl
  · intro id v block hv hplaced
    rw [hm, unit.builder.value?_addGlobal? hadded] at hv
    split at hv
    · cases hv
      cases hplaced
    · exact hv
  · rw [builder]
    exact unit.builder.point_addGlobal? hadded

end CompilationUnit

/-- A change by an evaluation in the current block keeps the arrangement. -/
theorem Effect.arranged {block : BlockId} {unit later : CompilationUnit}
    (h : Effect block unit later) (arranged : unit.Arranged (some block)) :
    later.Arranged (some block) := by
  have typed := h.typed arranged.typed
  have grows := h.grows
  cases h with
  | instruction _ _ operands => exact arranged.emit operands typed rfl .inl
  | constant =>
    refine arranged.keep typed grows (fun _ => rfl) ?_ id rfl
    intro id v other hv hplaced
    change (unit.builder.pushValue _).2.module.value? id = some v at hv
    rw [Builder.value?_pushValue] at hv
    split at hv
    · cases hv
      cases hplaced
    · exact hv
  | string _ hadded => exact arranged.addGlobal hadded typed rfl id
  | record => exact arranged.same typed rfl id

namespace CompilationUnit

variable {unit : CompilationUnit} {current? : Option BlockId}

theorem arranged_new (name : String) (target : Target) (limit : Nat) :
    (CompilationUnit.new name target limit).Arranged none where
  typed := typed_new name target limit
  ordered {block b} hb := by
    change (#[] : Array Block)[block.index]? = some b at hb
    simp at hb
  placed {id v block} hv := by
    change (#[] : Array Value)[id.index]? = some v at hv
    simp at hv
  locals hx := by
    obtain ⟨scope, hs, -⟩ := hx
    cases hs
  current h := nomatch h

section Entered

variable (unit) (name : String)

theorem enterFunction_fst : (unit.enterFunction name).1 = ⟨unit.module.blocks.size⟩ := by
  simp only [enterFunction]
  rw [Builder.createFunction_eq]
  rfl

theorem at_enterFunction :
    (unit.enterFunction name).2.builder.At (unit.enterFunction name).1 := by
  simp only [enterFunction]
  rw [Builder.createFunction_eq]
  exact ⟨rfl, by simp [Module.block?]⟩

theorem value?_enterFunction (id : ValueId) :
    (unit.enterFunction name).2.module.value? id = unit.module.value? id := by
  simp only [enterFunction]
  rw [Builder.createFunction_eq]
  rfl

/-- The entry block of a new routine is a new empty block. -/
theorem block?_enterFunction (block : BlockId) :
    (unit.enterFunction name).2.module.block? block =
      if block = (unit.enterFunction name).1 then
        some ⟨(unit.builder.createFunction name).1, "entry", []⟩
      else unit.module.block? block := by
  obtain ⟨index⟩ := block
  rw [enterFunction_fst]
  simp only [enterFunction]
  rw [Builder.createFunction_eq]
  simp [module, Module.block?, Array.getElem?_push]

theorem hasBlock_enterFunction :
    (unit.enterFunction name).2.HasBlock (unit.enterFunction name).1 := by
  simp only [HasBlock]
  rw [block?_enterFunction, if_pos rfl]
  rfl

end Entered

/-- A new routine has an empty block, and with no scope open there is no slot to be seen in it. -/
theorem Arranged.enterFunction (h : unit.Arranged current?) (closed : unit.scopes.scopes = [])
    (name : String) :
    (unit.enterFunction name).2.Arranged (some (unit.enterFunction name).1) := by
  have typed := h.typed.enterFunction name
  have grows : unit.module.Extends (unit.enterFunction name).2.module :=
    unit.builder.extends_createFunction name
  constructor
  · exact typed
  · intro block b hb
    rw [block?_enterFunction] at hb
    split at hb
    · cases hb
      trivial
    · exact (h.ordered hb).mono grows
  · intro id v block hv hplaced
    rw [value?_enterFunction] at hv
    obtain ⟨b, hb, hid⟩ := h.placed hv hplaced
    obtain ⟨new, hb'⟩ := grows.block hb
    exact ⟨_, hb', by simp [hid]⟩
  · rintro x ⟨scope, hs, hx⟩
    change scope ∈ [] :: unit.scopes.scopes at hs
    rw [closed] at hs
    cases List.mem_singleton.mp hs
    cases hx
  · intro block hcurrent
    cases hcurrent
    exact ⟨unit.hasBlock_enterFunction name, unit.at_enterFunction name⟩

/-- A declaration that succeeds places a slot; one that fails only reports. -/
theorem Arranged.declareLocal {block : BlockId} (h : unit.Arranged (some block)) (name : String)
    (ty : Ty) : ((FormM.declareLocal name ty).outcome unit).2.Arranged (some block) := by
  have typed := h.typed.declareLocal name ty
  have declared := FormM.outcome_declareLocal name ty unit
  by_cases free : unit.scopes.canBind name
  · rw [if_pos free] at declared
    rw [declared] at typed ⊢
    have operands : ∀ operand ∈ (Instruction.alloca ty name).operands, unit.Available block operand :=
      nofun
    apply h.emit operands typed rfl
    rintro x ⟨scope, hs, hx⟩
    rcases ScopeStack.mem_of_bind? hs hx with rfl | old
    · exact .inr (Builder.pushInstruction_fst ..)
    · exact .inl old
  · rw [if_neg free] at declared
    rw [declared] at typed ⊢
    exact h.same typed rfl id

theorem Arranged.declareGlobal (h : unit.Arranged current?) (name : String) (ty : Ty)
    (linkage : Linkage) (init? : Option Constant) :
    ((FormM.declareGlobal name ty linkage init?).outcome unit).2.Arranged current? := by
  have typed := h.typed.declareGlobal name ty linkage init?
  simp only [FormM.declareGlobal] at typed ⊢
  revert typed
  rw [FormM.outcome_registerGlobal]
  split
  · exact fun typed => h.same typed rfl id
  · split
    · exact fun typed => h.same typed rfl id
    · rename_i hadded
      exact fun typed => h.addGlobal hadded typed rfl id

/-- An evaluation in the current block keeps the arrangement, whether it succeeds or fails. -/
theorem Arranged.evaluate {request : Request} (h : unit.Arranged (some request.block))
    (evaluation : Evaluation) :
    ((evaluation.action .core request).outcome unit).2.Arranged (some request.block) := by
  obtain ⟨hasBlock, here⟩ := h.current rfl
  have ready : unit.Ready request.block := ⟨h.typed, hasBlock, here⟩
  obtain ⟨effects, -⟩ := evaluation.evaluates_action request ready
  exact effects.keeps Effect.arranged h

theorem Arranged.define (h : unit.Arranged current?) {defined : Except RegistryError Registry}
    (typed : (unit.define defined).Typed) : (unit.define defined).Arranged current? := by
  cases defined with
  | ok types => exact h.same typed rfl id
  | error error => exact h

theorem Arranged.perform (h : unit.Arranged current?) {operation : Operation}
    (disciplined : operation.Disciplined unit current?) :
    (unit.perform operation).Arranged (operation.entry? unit current?) := by
  have admissible : operation.Admissible unit := by
    cases operation with
    | evaluate evaluation request => exact (h.current disciplined).1
    | _ => trivial
  have typed := h.typed.perform admissible
  cases operation with
  | declareStruct name => exact h.same typed rfl id
  | defineStruct name params fields => exact h.define typed
  | defineEnum name underlying members => exact h.define typed
  | enterFunction name => exact h.enterFunction disciplined name
  | pushScope =>
    apply h.same typed rfl
    rintro x ⟨scope, hs, hx⟩
    rcases List.mem_cons.mp hs with rfl | old
    · cases hx
    · exact ⟨scope, old, hx⟩
  | popScope =>
    apply h.same typed rfl
    rintro x ⟨scope, hs, hx⟩
    exact ⟨scope, List.mem_of_mem_tail hs, hx⟩
  | declareLocal name ty =>
    obtain ⟨block, rfl⟩ := Option.isSome_iff_exists.mp disciplined
    exact h.declareLocal name ty
  | declareGlobal name ty linkage init? => exact h.declareGlobal name ty linkage init?
  | evaluate evaluation request =>
    cases disciplined
    exact h.evaluate evaluation
  | parseType node =>
    change ((FormM.check (node.typeName unit.types)).outcome unit).2.Arranged current?
    cases node.typeName unit.types with
    | ok ty => exact h
    | error error => exact h.same (h.typed.same rfl (.refl _) id rfl) rfl id
  | alignment ty => exact h.same typed rfl id
  | size ty => exact h.same typed rfl id
  | fieldOffset ty index => exact h.same typed rfl id
  | fail fault span => exact h.same typed rfl id
  | rollback mark => exact h.same typed rfl id

end CompilationUnit

theorem Disciplined.arranged {unit : CompilationUnit} {current? : Option BlockId}
    (h : Disciplined unit current?) : unit.Arranged current? := by
  induction h with
  | new name target limit => exact CompilationUnit.arranged_new name target limit
  | perform operation _ disciplined ih => exact ih.perform disciplined

end FormLowering
