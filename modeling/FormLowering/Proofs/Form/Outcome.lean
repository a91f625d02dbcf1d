import FormLowering.Form.Resolve

/-!
Operations on a unit as functions of the unit. Their equations and inversions are here, so a form is
opened by rewriting and never by unfolding its monad.
-/

namespace FormLowering
namespace FormM

variable {α β : Type}

/-- What an operation answers at a unit, and the unit that it leaves. -/
def outcome (action : FormM α) (unit : CompilationUnit) : Except FormError α × CompilationUnit :=
  action.run.run unit

theorem outcome_bind (action : FormM α) (next : α → FormM β) (unit : CompilationUnit) :
    outcome (action >>= next) unit = match outcome action unit with
      | (.ok a, later) => outcome (next a) later
      | (.error e, later) => (.error e, later) := by
  change (ExceptT.bindCont next (outcome action unit).1 : StateM CompilationUnit _)
    (outcome action unit).2 = _
  rcases outcome action unit with ⟨answer | answer, later⟩ <;> rfl

/-- From two units where the first part comes out alike, so does the whole. -/
theorem outcome_bind_congr {action : FormM α} {next : α → FormM β} {unit other : CompilationUnit}
    (h : outcome action unit = outcome action other) :
    outcome (action >>= next) unit = outcome (action >>= next) other := by
  rw [outcome_bind, outcome_bind, h]

/-- Where the whole succeeds, the first part did, and the rest from what that left. -/
theorem of_bind {action : FormM α} {next : α → FormM β} {unit later : CompilationUnit} {b : β}
    (h : outcome (action >>= next) unit = (.ok b, later)) :
    ∃ a mid, outcome action unit = (.ok a, mid) ∧ outcome (next a) mid = (.ok b, later) := by
  rw [outcome_bind] at h
  revert h
  rcases outcome action unit with ⟨e | a, mid⟩
  · intro h
    cases h
  · exact fun h => ⟨a, mid, rfl, h⟩

/-- Where the whole fails, the first part did, or the rest from what that left. -/
theorem of_bind_error {action : FormM α} {next : α → FormM β} {unit later : CompilationUnit}
    {error : FormError} (h : outcome (action >>= next) unit = (.error error, later)) :
    outcome action unit = (.error error, later) ∨
      ∃ a mid, outcome action unit = (.ok a, mid) ∧ outcome (next a) mid = (.error error, later) := by
  rw [outcome_bind] at h
  revert h
  rcases outcome action unit with ⟨e | a, mid⟩
  · intro h
    cases h
    exact .inl rfl
  · exact fun h => .inr ⟨a, mid, rfl, h⟩

theorem of_check {answer : Except FormError α} {unit later : CompilationUnit} {a : α}
    (h : outcome (check answer) unit = (.ok a, later)) : answer = .ok a ∧ unit = later := by
  cases answer with
  | error error => cases h
  | ok found =>
    cases h
    exact ⟨rfl, rfl⟩

@[simp] theorem outcome_get (unit : CompilationUnit) : outcome get unit = (.ok unit, unit) := rfl

@[simp] theorem outcome_build (operation : Builder → α × Builder) (unit : CompilationUnit) :
    outcome (build operation) unit =
      (.ok (operation unit.builder).1, { unit with builder := (operation unit.builder).2 }) := rfl

@[simp] theorem outcome_position (block : BlockId) (unit : CompilationUnit) :
    outcome (position block) unit =
      (.ok (), { unit with builder := unit.builder.position block }) := rfl

@[simp] theorem outcome_measure (query : Registry → Target → LayoutM α) (unit : CompilationUnit) :
    outcome (measure query) unit =
      (.ok ((query unit.types unit.target).run.run unit.layout).1,
        { unit with layout := ((query unit.types unit.target).run.run unit.layout).2 }) := rfl

/-- A global is refused if the unit or the module has one of its name. -/
theorem outcome_registerGlobal (name : String) (ty : Ty) (linkage : Linkage) (isConstant : Bool)
    (init? : Option Constant) (span : Span) (unit : CompilationUnit) :
    outcome (registerGlobal name ty linkage isConstant init? span) unit =
      if (Variable.named? unit.globals name).isSome then
        outcome (fail (.redefinition name) span) unit
      else match unit.builder.addGlobal? name ty linkage isConstant init? with
        | none => outcome (fail (.redefinition name) span) unit
        | some (_, storage, builder) =>
          let binding : Variable := ⟨name, name, ty, storage, some linkage⟩
          (.ok binding, { unit with builder, globals := unit.globals ++ [binding] }) := by
  simp only [registerGlobal]
  rw [outcome_bind, outcome_get]
  dsimp only
  split
  · rfl
  · cases unit.builder.addGlobal? name ty linkage isConstant init? with
    | none => rfl
    | some added => rfl

/-- The end of an attempt: what failed is taken out of the log again. -/
def settle (mark : Checkpoint) (ended : Except FormError α) :
    StateM CompilationUnit (Except FormError (Except FormError α)) := do
  if ended matches .error _ then modify (·.rollback mark)
  return .ok ended

/-- An attempt always has an outcome, which is that of the action; one that failed is taken out of
the log again. -/
theorem outcome_attempt (action : FormM α) (unit : CompilationUnit) :
    outcome (attempt action) unit = match outcome action unit with
      | (.ok a, later) => (.ok (.ok a), later)
      | (.error e, later) => (.ok (.error e), later.rollback unit.log.checkpoint) := by
  have opened : outcome (attempt action) unit =
      (settle unit.log.checkpoint (outcome action unit).1).run (outcome action unit).2 := rfl
  rw [opened]
  rcases outcome action unit with ⟨answer | answer, later⟩ <;> rfl

end FormM
end FormLowering
