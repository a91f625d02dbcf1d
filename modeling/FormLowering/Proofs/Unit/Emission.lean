import FormLowering.Proofs.Report.Failure
import FormLowering.Proofs.Unit.Discipline

/-!
The code of a unit is well formed. If a routine is entered before the first local is declared, the
builder never counts a fault: every instruction is placed in a block, and every access goes through
a pointer. So the log at the end is the log that the operations made.
-/

namespace FormLowering

namespace CompilationUnit

/-- The unit after operations, each performed on what the one before left. -/
def performs (unit : CompilationUnit) (operations : List Operation) : CompilationUnit :=
  operations.foldl perform unit

end CompilationUnit

/-- Every operation is admissible when it is performed. -/
def Operation.AllAdmissible : CompilationUnit → List Operation → Prop
  | _, [] => True
  | unit, operation :: rest =>
    operation.Admissible unit ∧ AllAdmissible (unit.perform operation) rest

/-- A routine is entered before the first local is declared. -/
def Operation.EntersFirst : List Operation → Prop
  | [] => True
  | .enterFunction _ :: _ => True
  | .declareLocal _ _ :: _ => False
  | _ :: rest => EntersFirst rest

/-- Every instruction stands in a block, and in the block's list. -/
def Module.Placed (module : Module) : Prop :=
  ∀ id instruction ty block?, module.value? id = some ⟨.instruction instruction, ty, block?⟩ →
    ∃ block b, block? = some block ∧ module.block? block = some b ∧ id ∈ b.instructions

namespace CompilationUnit

/-- No fault was counted, and there is a block wherever the insertion point is. -/
structure Emitted (unit : CompilationUnit) : Prop where
  faultless : unit.builder.faults = 0
  placed : unit.module.Placed
  position : ∀ {block}, unit.builder.block? = some block → unit.HasBlock block

variable {unit later : CompilationUnit}

/-- What adds no instruction keeps the placement, wherever it moves the insertion point. -/
theorem Emitted.keep (h : unit.Emitted) (faults : later.builder.faults = unit.builder.faults)
    (hm : unit.module.Extends later.module)
    (values : ∀ {id instruction ty block?},
      later.module.value? id = some ⟨.instruction instruction, ty, block?⟩ →
      unit.module.value? id = some ⟨.instruction instruction, ty, block?⟩)
    (position : ∀ {block}, later.builder.block? = some block → later.HasBlock block) :
    later.Emitted where
  faultless := faults.trans h.faultless
  placed id instruction ty block? hv := by
    obtain ⟨block, b, placed, hb, hid⟩ := h.placed id instruction ty block? (values hv)
    obtain ⟨new, hb'⟩ := hm.block hb
    exact ⟨block, _, placed, hb', List.mem_append_left new hid⟩
  position := position

/-- Tables that hold no code do not matter. -/
theorem Emitted.same (h : unit.Emitted) (builder : later.builder = unit.builder) :
    later.Emitted := by
  have hm : later.module = unit.module := congrArg Builder.module builder
  refine h.keep (congrArg Builder.faults builder) (hm ▸ .refl _) (fun hv => hm ▸ hv) ?_
  intro block hposition
  rw [builder] at hposition
  rw [HasBlock, hm]
  exact h.position hposition

theorem Emitted.positioned (h : unit.Emitted) {block : BlockId} (hasBlock : unit.HasBlock block) :
    (unit.positioned block).Emitted := by
  refine h.keep rfl (.refl _) id ?_
  rintro _ ⟨⟩
  exact hasBlock

/-- An instruction that has an insertion point is placed there, and is no fault. -/
theorem Emitted.emit {block : BlockId} (h : unit.Emitted)
    (position : unit.builder.block? = some block) {instruction : Instruction} {ty : Ty}
    (builder : later.builder = (unit.builder.pushInstruction instruction ty).2) : later.Emitted := by
  have hm : later.module = (unit.builder.pushInstruction instruction ty).2.module :=
    congrArg Builder.module builder
  have grows : unit.module.Extends later.module :=
    hm ▸ unit.builder.extends_pushInstruction instruction ty
  have hasBlock : unit.HasBlock block := h.position position
  constructor
  · rw [builder, Builder.pushInstruction_snd unit.builder position]
    exact h.faultless
  · intro id instruction' ty' block? hv
    rw [hm, Builder.value?_pushInstruction] at hv
    split at hv
    · rename_i new
      cases hv
      obtain ⟨current, hcurrent⟩ := Option.isSome_iff_exists.mp hasBlock
      refine ⟨block, { current with instructions := current.instructions ++ [id] }, position, ?_,
        by simp⟩
      rw [hm, Builder.block?_pushInstruction unit.builder position, if_pos rfl, new]
      exact congrArg (Option.map _) hcurrent
    · obtain ⟨block', b, placed, hb, hid⟩ := h.placed id instruction' ty' block? hv
      obtain ⟨new, hb'⟩ := grows.block hb
      exact ⟨block', _, placed, hb', List.mem_append_left new hid⟩
  · intro other hother
    rw [builder, Builder.block_pushInstruction] at hother
    exact grows.hasBlock (h.position hother)

theorem Emitted.addGlobal (h : unit.Emitted) {name : String} {ty : Ty} {linkage : Linkage}
    {isConstant : Bool} {init? : Option Constant} {added : GlobalId × ValueId × Builder}
    (hadded : unit.builder.addGlobal? name ty linkage isConstant init? = some added)
    (builder : later.builder = added.2.2) : later.Emitted := by
  have hm : later.module = added.2.2.module := congrArg Builder.module builder
  have grows : unit.module.Extends later.module := hm ▸ unit.builder.extends_addGlobal? hadded
  have kept := unit.builder.addGlobal?_eq_some hadded
  refine h.keep ?_ grows ?_ ?_
  · rw [builder, kept]
    rfl
  · intro id instruction ty block? hv
    rw [hm, unit.builder.value?_addGlobal? hadded] at hv
    split at hv
    · cases hv
    · exact hv
  · intro block hposition
    rw [builder, kept] at hposition
    exact grows.hasBlock (h.position hposition)

end CompilationUnit

/-- An evaluation emits nothing but instructions with an insertion point. -/
theorem Effect.emitted {block : BlockId} {unit later : CompilationUnit}
    (h : Effect block unit later)
    (emitted : unit.Emitted ∧ unit.builder.block? = some block) :
    later.Emitted ∧ later.builder.block? = some block := by
  obtain ⟨emitted, position⟩ := emitted
  refine ⟨?_, h.position.trans position⟩
  cases h with
  | instruction => exact emitted.emit position rfl
  | constant =>
    refine emitted.keep rfl (unit.builder.extends_pushValue _) ?_ emitted.position
    intro id instruction ty block? hv
    change (unit.builder.pushValue _).2.module.value? id = _ at hv
    rw [Builder.value?_pushValue] at hv
    split at hv
    · cases hv
    · exact hv
  | string _ hadded => exact emitted.addGlobal hadded rfl
  | record => exact emitted.same rfl

namespace CompilationUnit

variable {unit : CompilationUnit}

theorem emitted_new (name : String) (target : Target) (limit : Nat) :
    (CompilationUnit.new name target limit).Emitted where
  faultless := rfl
  placed id instruction ty block? hv := by
    change (#[] : Array Value)[id.index]? = _ at hv
    simp at hv
  position h := nomatch h

theorem Emitted.enterFunction (h : unit.Emitted) (name : String) :
    (unit.enterFunction name).2.Emitted := by
  refine h.keep rfl (unit.builder.extends_createFunction name) ?_ ?_
  · intro id instruction ty block? hv
    exact (unit.value?_enterFunction name id).symm.trans hv
  · intro block hposition
    cases (unit.at_enterFunction name).position.symm.trans hposition
    exact unit.hasBlock_enterFunction name

/-- The slot of a local is placed in the block of the insertion point. -/
theorem Emitted.declareLocal (h : unit.Emitted) (entered : unit.builder.block?.isSome)
    (name : String) (ty : Ty) : ((FormM.declareLocal name ty).outcome unit).2.Emitted := by
  obtain ⟨block, position⟩ := Option.isSome_iff_exists.mp entered
  rw [FormM.outcome_declareLocal]
  split
  · exact h.emit position rfl
  · exact h.same rfl

theorem Emitted.declareGlobal (h : unit.Emitted) (name : String) (ty : Ty) (linkage : Linkage)
    (init? : Option Constant) :
    ((FormM.declareGlobal name ty linkage init?).outcome unit).2.Emitted := by
  simp only [FormM.declareGlobal]
  rw [FormM.outcome_registerGlobal]
  split
  · exact h.same rfl
  · split
    · exact h.same rfl
    · rename_i hadded
      exact h.addGlobal hadded rfl

/-- An evaluation in a block that exists counts no fault, whether it succeeds or fails. -/
theorem Emitted.evaluate (h : unit.Emitted) (typed : unit.Typed) (evaluation : Evaluation)
    {request : Request} (hasBlock : unit.HasBlock request.block) :
    ((evaluation.action .core request).outcome unit).2.Emitted := by
  rcases evaluation.outcome_action .core request unit with same | ⟨error, failed⟩
  · obtain ⟨effects, -⟩ := evaluation.evaluates_action request (typed.ready hasBlock)
    rw [same]
    exact (effects.keeps Effect.emitted ⟨h.positioned hasBlock, rfl⟩).1
  · rw [failed]
    exact h.same rfl

theorem builder_define (unit : CompilationUnit) (defined : Except RegistryError Registry) :
    (unit.define defined).builder = unit.builder := by
  cases defined <;> rfl

theorem builder_parseType (unit : CompilationUnit) (node : Node) :
    (unit.perform (.parseType node)).builder = unit.builder := by
  change ((FormM.check (node.typeName unit.types)).outcome unit).2.builder = unit.builder
  cases node.typeName unit.types <;> rfl

/-- Only the slot of a local is emitted without a choice of its block. -/
theorem Emitted.perform (h : unit.Emitted) (typed : unit.Typed) {operation : Operation}
    (admissible : operation.Admissible unit)
    (entered : ∀ name ty, operation = .declareLocal name ty → unit.builder.block?.isSome) :
    (unit.perform operation).Emitted := by
  cases operation with
  | declareStruct | pushScope | popScope | alignment | size | fieldOffset | fail | rollback =>
    exact h.same rfl
  | defineStruct name params fields => exact h.same (builder_define unit _)
  | defineEnum name underlying members => exact h.same (builder_define unit _)
  | enterFunction name => exact h.enterFunction name
  | declareLocal name ty => exact h.declareLocal (entered name ty rfl) name ty
  | declareGlobal name ty linkage init? => exact h.declareGlobal name ty linkage init?
  | evaluate evaluation request => exact h.evaluate typed evaluation admissible
  | parseType node => exact h.same (builder_parseType unit node)

/-- Once there is an insertion point, there is one ever after. -/
theorem isSome_perform (typed : unit.Typed) {operation : Operation}
    (admissible : operation.Admissible unit) (entered : unit.builder.block?.isSome) :
    (unit.perform operation).builder.block?.isSome := by
  cases operation with
  | declareStruct | pushScope | popScope | alignment | size | fieldOffset | fail | rollback =>
    exact entered
  | defineStruct name params fields => exact (builder_define unit _).symm ▸ entered
  | defineEnum name underlying members => exact (builder_define unit _).symm ▸ entered
  | parseType node => exact (builder_parseType unit node).symm ▸ entered
  | enterFunction name =>
    exact Option.isSome_iff_exists.mpr ⟨_, (unit.at_enterFunction name).position⟩
  | declareLocal name ty =>
    simp only [CompilationUnit.perform]
    rw [FormM.outcome_declareLocal]
    split
    · exact (unit.builder.block_pushInstruction _ _).symm ▸ entered
    · exact entered
  | declareGlobal name ty linkage init? =>
    simp only [CompilationUnit.perform, FormM.declareGlobal]
    rw [FormM.outcome_registerGlobal]
    split
    · exact entered
    · split
      · exact entered
      · rename_i hadded
        cases unit.builder.addGlobal?_eq_some hadded
        exact entered
  | evaluate evaluation request =>
    simp only [CompilationUnit.perform]
    rcases evaluation.outcome_action .core request unit with same | ⟨error, failed⟩
    · obtain ⟨effects, -⟩ := evaluation.evaluates_action request (typed.ready admissible)
      rw [same]
      exact effects.keeps (P := fun u => u.builder.block?.isSome)
        (fun step found => step.position.symm ▸ found) rfl
    · rw [failed]
      exact entered

theorem Emitted.performs {operations : List Operation} (h : unit.Emitted) (typed : unit.Typed)
    (admissible : Operation.AllAdmissible unit operations)
    (entered : unit.builder.block?.isSome ∨ Operation.EntersFirst operations) :
    (unit.performs operations).Typed ∧ (unit.performs operations).Emitted := by
  induction operations generalizing unit with
  | nil => exact ⟨typed, h⟩
  | cons operation rest ih =>
    obtain ⟨first, admissible⟩ := admissible
    have declared (name : String) (ty : Ty) (same : operation = .declareLocal name ty) :
        unit.builder.block?.isSome := by
      subst same
      exact entered.resolve_right id
    refine ih (h.perform typed first declared) (typed.perform first) admissible ?_
    rcases entered with entered | entered
    · exact .inl (isSome_perform typed first entered)
    · cases operation with
      | enterFunction name =>
        exact .inl (Option.isSome_iff_exists.mpr ⟨_, (unit.at_enterFunction name).position⟩)
      | declareLocal => exact entered.elim
      | _ => exact .inr entered

end CompilationUnit

/-! ## The log -/

theorem FormFault.code_ne_internal (fault : FormFault) : fault.code ≠ .internal := by
  intro same
  cases fault <;> cases same

/-- No report of the log is about the compiler itself. -/
def Log.External (log : Log) : Prop := ∀ report ∈ log.entries, report.code ≠ .internal

namespace Log.External

variable {log : Log}

theorem push (h : log.External) (error : FormError) : (log.push error.diagnostic).External := by
  intro report mem
  unfold Log.push at mem
  split at mem
  · exact h report mem
  · rcases List.mem_append.mp mem with old | new
    · exact h report old
    · cases List.mem_singleton.mp new
      exact error.fault.code_ne_internal

theorem rollback (h : log.External) (mark : Checkpoint) : (log.rollback mark).External :=
  fun report mem => h report (List.mem_of_mem_take mem)

theorem reports {α : Type} {action : FormM α} {unit : CompilationUnit} (h : unit.log.External)
    (reports : FormM.Reports action) : (action.outcome unit).2.log.External := by
  have same := reports unit
  revert same
  rcases action.outcome unit with ⟨error | a, later⟩
  · exact fun same => same.symm ▸ h.push error
  · exact fun same => same.symm ▸ h

end Log.External

theorem FormM.Reports.declareLocal (name : String) (ty : Ty) :
    Reports (FormM.declareLocal name ty) := by
  refine .bind .get fun unit => ?_
  split
  · exact .bind (.build _) fun _ => fun _ => rfl
  · exact .fail _ _

namespace CompilationUnit

variable {unit : CompilationUnit}

theorem external_perform (h : unit.log.External) (operation : Operation) :
    (unit.perform operation).log.External := by
  cases operation with
  | declareStruct | enterFunction | pushScope | popScope => exact h
  | defineStruct name params fields =>
    simp only [perform]
    cases unit.types.defineStruct name params fields <;> exact h
  | defineEnum name underlying members =>
    simp only [perform]
    cases unit.types.defineEnum name underlying members <;> exact h
  | declareLocal name ty => exact h.reports (.declareLocal name ty)
  | declareGlobal name ty linkage init? => exact h.reports (.registerGlobal name ty linkage false init? .dummy)
  | evaluate evaluation request => exact h.reports (evaluation.reports_action request)
  | parseType node => exact h.reports (.parseType node)
  | alignment | size | fieldOffset => exact h.reports (.measure _)
  | fail fault span => exact h.push ⟨fault, span⟩
  | rollback mark => exact h.rollback mark

theorem external_performs (h : unit.log.External) (operations : List Operation) :
    (unit.performs operations).log.External := by
  induction operations generalizing unit with
  | nil => exact h
  | cons operation rest ih => exact ih (external_perform h operation)

/-- The forms never emit malformed code. After any operations that enter a routine before they
declare a local, no fault was counted, every instruction is placed, every access goes through a
pointer, and the log at the end is the unit's, which blames the compiler for nothing. -/
theorem no_fault_emitted (name : String) (target : Target) (limit : Nat)
    (operations : List Operation)
    (admissible : Operation.AllAdmissible (.new name target limit) operations)
    (entered : Operation.EntersFirst operations) :
    let unit := (CompilationUnit.new name target limit).performs operations
    unit.builder.faults = 0 ∧ unit.module.Placed ∧ unit.module.AccessesAgree ∧
      unit.finish = (unit.module, unit.log) ∧ unit.log.External := by
  intro unit
  obtain ⟨typed, emitted⟩ := (emitted_new name target limit).performs
    (typed_new name target limit) admissible (.inr entered)
  refine ⟨emitted.faultless, emitted.placed, typed.module.accessesAgree, ?_,
    external_performs (fun _ mem => absurd mem List.not_mem_nil) operations⟩
  rw [finish, if_pos emitted.faultless]

/-- Without a routine to be in, a slot is emitted in no block, and it is counted. -/
example : (((new "m" .x86_64 0).performs
    [.pushScope, .declareLocal "x" .char]).finish).2.entries = [faultReport 1] := by
  rfl

/-- A refused assignment, an assignment and a copy of a pointer, in a routine with two locals. -/
theorem pointer_assignments_emitted :
    let name (text : String) : Node := .atom ⟨.identifier, text, .dummy⟩
    let operations : List Operation :=
      [.pushScope, .enterFunction "f", .declareLocal "reader" (.constPointerTo .char),
        .declareLocal "writer" (.pointerTo .char),
        .evaluate (.assign (name "writer") (name "reader")) { block := ⟨0⟩ },
        .evaluate (.assign (name "reader") (name "writer")) { block := ⟨0⟩ }]
    let unit := (CompilationUnit.new "m" .x86_64 0).performs operations
    unit.log.entries.length = 1 ∧ unit.builder.faults = 0 ∧ unit.finish = (unit.module, unit.log) := by
  intro name operations unit
  have admissible : Operation.AllAdmissible (.new "m" .x86_64 0) operations :=
    ⟨trivial, trivial, trivial, trivial, rfl, rfl, trivial⟩
  obtain ⟨faultless, -, -, finished, -⟩ :=
    no_fault_emitted "m" .x86_64 0 operations admissible trivial
  exact ⟨rfl, faultless, finished⟩

end CompilationUnit
end FormLowering
