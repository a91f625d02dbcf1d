import FormLowering.Proofs.Form.Application
import FormLowering.Proofs.Unit.Operation

/-!
One report for each failure. An operation that succeeds leaves the log as it was; one that fails
pushes the report of its error and nothing else, however many parts it had and attempts it made.
-/

namespace FormLowering
namespace FormM

variable {α β : Type}

/-- The log after an operation is the log before it, with the report of the error if it failed. -/
def Reports (action : FormM α) : Prop := ∀ unit : CompilationUnit,
  match outcome action unit with
  | (.ok _, later) => later.log = unit.log
  | (.error error, later) => later.log = unit.log.push error.diagnostic

theorem Reports.pure (a : α) : Reports (pure a) := fun _ => rfl

theorem Reports.get : Reports get := fun _ => rfl

theorem Reports.build (operation : Builder → α × Builder) : Reports (build operation) :=
  fun _ => rfl

theorem Reports.position (block : BlockId) : Reports (position block) := fun _ => rfl

theorem Reports.measure (query : Registry → Target → LayoutM α) : Reports (measure query) :=
  fun _ => rfl

theorem Reports.unusedName : Reports unusedName := fun _ => rfl

theorem Reports.check (answer : Except FormError α) : Reports (check answer) := by
  intro unit
  cases answer <;> rfl

theorem Reports.fail (fault : FormFault) (span : Span) : Reports (fail fault span : FormM α) :=
  Reports.check _

theorem Reports.bind {action : FormM α} {next : α → FormM β} (first : Reports action)
    (rest : ∀ a, Reports (next a)) : Reports (action >>= next) := by
  intro unit
  rw [outcome_bind]
  have h := first unit
  revert h
  rcases outcome action unit with ⟨e | a, later⟩
  · exact id
  · intro (h : later.log = unit.log)
    exact h ▸ rest a later

/-- An attempt is silent: the mark was taken before the one report that a failure makes. -/
theorem Reports.attempt {action : FormM α} (h : Reports action) : Reports (attempt action) := by
  intro unit
  rw [outcome_attempt]
  have h := h unit
  revert h
  rcases outcome action unit with ⟨e | a, later⟩
  · intro (h : later.log = unit.log.push e.diagnostic)
    change later.log.rollback unit.log.checkpoint = unit.log
    rw [h, Log.rollback_push]
  · exact id

theorem Reports.registerGlobal (name : String) (ty : Ty) (linkage : Linkage) (isConstant : Bool)
    (init? : Option Constant) (span : Span) :
    Reports (registerGlobal name ty linkage isConstant init? span) := by
  intro unit
  rw [outcome_registerGlobal]
  by_cases known : (Variable.named? unit.globals name).isSome
  · rw [if_pos known]
    exact Reports.fail (α := Variable) _ _ unit
  · rw [if_neg known]
    cases unit.builder.addGlobal? name ty linkage isConstant init? with
    | none => exact Reports.fail (α := Variable) _ _ unit
    | some added => rfl

end FormM

open FormM (Reports)

theorem FormM.Reports.constant (request : Request) (ty : Ty) (value : Constant) :
    Reports (FormM.constant request ty value) :=
  .bind (.build _) fun _ => .pure _

theorem FormM.Reports.access (address : ValueId) (stored : Ty) (request : Request) :
    Reports (FormM.access address stored request) := by
  simp only [FormM.access]
  split
  · exact .pure _
  · split
    · exact .bind (.build _) fun _ => .pure _
    · exact .bind (.build _) fun _ => .pure _

theorem FormM.Reports.follow (place : TypedValue) (outer : Ty) :
    Reports (FormM.follow place outer) := by
  simp only [FormM.follow]
  split
  · exact .bind (.build _) fun _ => .pure _
  · exact .pure _

theorem FormM.Reports.parseType (node : Node) : Reports (FormM.parseType node) :=
  .bind .get fun _ => .check _

theorem FormM.Reports.measured (request : Request) (ty : Ty) (span : Span)
    (query : Registry → Target → LayoutM Nat) :
    Reports (FormM.measured request ty span query) := by
  refine .bind (.measure _) ?_
  intro answer
  cases answer with
  | error error => exact .fail _ _
  | ok n =>
    refine .bind .get ?_
    intro unit
    dsimp only
    split
    · exact .constant _ _ _
    · exact .fail _ _

theorem Token.reports_speculate (token : Token) (request : Request) :
    Reports (token.speculate request) := by
  refine .bind .get ?_
  intro unit
  split
  · exact .pure _
  · refine .bind (.attempt ?_) fun _ => .pure _
    exact .bind (.check _) fun _ => .bind .get fun _ => .constant _ _ _

theorem Token.reports_integer (token : Token) (request : Request) :
    Reports (token.integer request) := by
  refine .bind .get ?_
  intro unit
  dsimp only
  split
  · exact .constant _ _ _
  · exact .fail _ _

theorem Token.reports_floating (token : Token) (request : Request) :
    Reports (token.floating request) := by
  unfold Token.floating
  dsimp only
  split
  · exact .constant _ _ _
  · exact .fail _ _

theorem Token.reports_identifier (token : Token) (request : Request) :
    Reports (token.identifier request) := by
  refine .bind (.check _) ?_
  intro named
  split
  · exact .constant _ _ _
  · refine .bind .get ?_
    intro unit
    split
    · exact .access _ _ _
    · exact .fail _ _

theorem Token.reports_string (token : Token) (request : Request) :
    Reports (token.string request) := by
  simp only [Token.string]
  split
  · exact .fail _ _
  · exact .bind .unusedName fun _ => .bind (.registerGlobal _ _ _ _ _ _) fun _ =>
      .bind (.build _) fun _ => .pure _

theorem Token.reports_resolve (token : Token) (request : Request) :
    Reports (token.resolve request) := by
  refine .bind (.position _) ?_
  intro _
  cases token.kind with
  | integer => exact token.reports_integer request
  | floating => exact token.reports_floating request
  | identifier =>
    refine .bind (token.reports_speculate request) ?_
    intro found
    cases found with
    | some result => exact .pure _
    | none => exact token.reports_identifier request
  | string =>
    refine .bind (token.reports_speculate request) ?_
    intro found
    cases found with
    | some result => exact .pure _
    | none => exact token.reports_string request

section Forms

variable {first second : Operand} {request : Request}

theorem Operand.reports_field (hf : ∀ request, Reports (first.resolve request)) :
    Reports (FormM.resolveField first second request) := by
  rw [FormM.resolveField_eq]
  refine .bind (.check _) fun name => .bind (hf _) fun place => .bind (.position _) ?_
  intro _
  split
  · exact .fail _ _
  · refine .bind (.follow _ _) ?_
    intro record
    exact .bind .get fun _ => .bind (.check _) fun _ => .bind (.build _) fun _ => .access _ _ _

theorem Operand.reports_assign (hf : ∀ request, Reports (first.resolve request))
    (hs : ∀ request, Reports (second.resolve request)) :
    Reports (FormM.assign first second request) := by
  refine .bind (hf _) ?_
  intro place
  split
  · refine .bind (hs _) ?_
    intro source
    split
    · refine .bind (.position _) fun _ => .bind (.build _) ?_
      intro _
      dsimp only
      split <;> exact .pure _
    · exact .fail _ _
  · exact .fail _ _

theorem Operand.reports_addressOf {span : Span} (hf : ∀ request, Reports (first.resolve request)) :
    Reports (Form.addressOf span [first] request) := by
  unfold Form.addressOf
  dsimp only
  split
  · exact .fail _ _
  · refine .bind (hf _) ?_
    intro inner
    split
    · exact .pure _
    · exact .fail _ _

theorem Operand.reports_dereference {span : Span}
    (hf : ∀ request, Reports (first.resolve request)) :
    Reports (Form.dereference span [first] request) := by
  refine .bind (hf _) ?_
  intro inner
  split
  · exact .fail _ _
  · split
    · exact .pure _
    · exact .bind (.position _) fun _ => .access _ _ _

theorem Operand.reports_measuring {span : Span} (query : Registry → Target → Ty → LayoutM Nat) :
    Reports (Form.measuring query span [first] request) :=
  .bind (.parseType _) fun _ => .measured _ _ _ _

theorem Operand.reports_offsetOf {span : Span} :
    Reports (Form.offsetOf span [first, second] request) := by
  refine .bind (.parseType _) ?_
  intro ty
  split
  · exact .fail _ _
  · refine .bind (.check _) fun field => .bind .get ?_
    intro unit
    split
    · exact .fail _ _
    · exact .measured _ _ _ _

end Forms

theorem Node.reports_resolve (node : Node) :
    ∀ request, Reports (node.resolve .core request) := by
  refine Node.core_induction (P := fun _ _ action => Reports action)
    (fun token => token.reports_resolve)
    (fun _ _ _ _ => .bind (.position _) fun _ => .fail _ _) ?_ node
  intro items span request name args viaCore action _ application ih
  refine .bind (.position _) ?_
  intro _
  cases application with
  | refused fault => exact .fail _ _
  | field base => exact Operand.reports_field (ih base (by simp))
  | assign target value => exact Operand.reports_assign (ih target (by simp)) (ih value (by simp))
  | addressOf operand => exact Operand.reports_addressOf (ih operand (by simp))
  | dereference operand => exact Operand.reports_dereference (ih operand (by simp))
  | alignmentOf => exact Operand.reports_measuring _
  | sizeOf => exact Operand.reports_measuring _
  | offsetOf => exact Operand.reports_offsetOf

theorem Evaluation.reports_action (evaluation : Evaluation) (request : Request) :
    Reports (evaluation.action .core request) := by
  cases evaluation with
  | any node => exact node.reports_resolve request
  | token node =>
    cases node with
    | atom token => exact token.reports_resolve request
    | list items span => exact .bind (.position _) fun _ => .fail _ _
  | member base field => exact Operand.reports_field base.reports_resolve
  | assign target value => exact Operand.reports_assign target.reports_resolve value.reports_resolve

def FormFault.report (fault : FormFault) (place : Span) : Diagnostic where
  code := fault.code
  message := fault.message
  labels := [{ span := place, text := fault.code.title, isPrimary := true }]
  notes := []

/-- What a log is after an answer: as before a success, and with one more report after a failure,
which a full log only counts. -/
def Log.Reflects {α : Type} (before : Log) : Except FormError α → Log → Prop
  | .ok _, after => after = before
  | .error error, after =>
    let report := error.fault.report error.span
    after = before.push report ∧
      (before.isFull → after.entries = before.entries ∧ after.dropped = before.dropped + 1) ∧
      (¬before.isFull → after.entries = before.entries ++ [report] ∧ after.dropped = before.dropped)

theorem FormM.Reports.reflects {α : Type} {action : FormM α} (h : Reports action)
    (unit : CompilationUnit) :
    unit.log.Reflects (action.outcome unit).1 (action.outcome unit).2.log := by
  have h := h unit
  revert h
  rcases action.outcome unit with ⟨error | a, later⟩
  · intro (h : later.log = unit.log.push error.diagnostic)
    refine ⟨h, ?_, ?_⟩
    · intro full
      simp [h, Log.push, full]
    · intro room
      simp [h, Log.push, room, FormError.diagnostic, FormFault.report]
  · exact id

/-- Whatever is evaluated or read as a type, in any unit and with any limit: success leaves the log
alone, and a failure is reported once, at its place, in its words. -/
theorem log_reflects_answer (unit : CompilationUnit) :
    (∀ (evaluation : Evaluation) (request : Request),
      unit.log.Reflects ((evaluation.action .core request).outcome unit).1
        ((evaluation.action .core request).outcome unit).2.log) ∧
    ∀ node : Node, unit.log.Reflects ((FormM.parseType node).outcome unit).1
      ((FormM.parseType node).outcome unit).2.log :=
  ⟨fun evaluation request => (evaluation.reports_action request).reflects unit,
    fun node => (FormM.Reports.parseType node).reflects unit⟩

end FormLowering
