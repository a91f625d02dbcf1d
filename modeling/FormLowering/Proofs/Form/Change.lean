import FormLowering.Proofs.Code.Construction
import FormLowering.Proofs.Form.Leading
import FormLowering.Proofs.Ty.Session

/-!
What an evaluation can do to a unit, whatever the unit is and whether the evaluation succeeds or
fails: a few kinds of changes, one after the other. What each kind keeps, every evaluation keeps.
-/

namespace FormLowering

/-- The edits that forms make; where `stores` does not hold, they write to no memory. -/
inductive Builder.Edit.OfForm (stores : Prop) : Builder.Edit → Prop
  | position (block : BlockId) : OfForm stores (.position block)
  | constant (ty : Ty) (constant : Constant) : OfForm stores (.constant ty constant)
  | load (pointer : ValueId) : OfForm stores (.load pointer)
  | store (allowed : stores) (value pointer : ValueId) : OfForm stores (.store value pointer)
  | gep (pointer : ValueId) (indices : List Nat) (ty : Ty) : OfForm stores (.gep pointer indices ty)

/-- One change of a unit by a form. -/
inductive Change (stores : Prop) : CompilationUnit → CompilationUnit → Prop
  | report {unit : CompilationUnit} (log : Log) : Change stores unit { unit with log }
  | edit {unit : CompilationUnit} {edit : Builder.Edit} : edit.OfForm stores →
      Change stores unit { unit with builder := unit.builder.edit edit }
  | measure {unit : CompilationUnit} (query : LayoutQuery) :
      Change stores unit { unit with
        layout := ((query.run unit.types unit.target).run.run unit.layout).2 }
  /-- A string under the first unused name. -/
  | string {unit : CompilationUnit} {text : String} {added : GlobalId × ValueId × Builder} :
      unit.builder.addGlobal? (CompilationUnit.generatedName unit.unusedNumber) (.ofString text)
        .internal true (some (.bytes (stringBytes text))) = some added →
      Change stores unit { unit with
        builder := added.2.2
        globals := unit.globals ++ [⟨CompilationUnit.generatedName unit.unusedNumber,
          CompilationUnit.generatedName unit.unusedNumber, .ofString text, added.2.1,
          some .internal⟩]
        nextName := unit.unusedNumber + 1 }

abbrev Changes (stores : Prop) : CompilationUnit → CompilationUnit → Prop :=
  Relation.ReflTransGen (Change stores)

/-! ## What is kept -/

/-- Nothing is being measured, and the memo is sound for the types. -/
def CompilationUnit.Settled (unit : CompilationUnit) : Prop :=
  LayoutSession.Settled unit.target ⟨unit.types, unit.layout⟩

theorem Builder.extends_edit {builder : Builder} {stores : Prop} {edit : Builder.Edit}
    (h : edit.OfForm stores) : builder.module.Extends (builder.edit edit).module := by
  cases h with
  | position => exact .refl _
  | constant => exact builder.extends_pushValue _
  | load pointer => exact builder.extends_load pointer
  | store _ value pointer => exact builder.extends_store value pointer
  | gep => exact builder.extends_pushInstruction _ _

namespace Change

variable {stores : Prop} {unit later : CompilationUnit}

theorem grows (h : Change stores unit later) : unit.module.Extends later.module := by
  cases h with
  | report | measure => exact .refl _
  | edit form => exact Builder.extends_edit form
  | string added => exact unit.builder.extends_addGlobal? added

theorem types (h : Change stores unit later) : later.types = unit.types := by
  cases h <;> rfl

theorem target (h : Change stores unit later) : later.target = unit.target := by
  cases h <;> rfl

theorem scopes (h : Change stores unit later) : later.scopes = unit.scopes := by
  cases h <;> rfl

/-- A name that is not of the generated form keeps its meaning. -/
theorem lookup (h : Change stores unit later) {name : String}
    (plain : CompilationUnit.isGenerated name = false) :
    later.lookup? name = unit.lookup? name := by
  cases h with
  | report | edit | measure => rfl
  | @string text added _ =>
    have other : (CompilationUnit.generatedName unit.unusedNumber == name) = false := by
      rw [beq_eq_false_iff_ne]
      rintro rfl
      rw [CompilationUnit.isGenerated_generatedName] at plain
      cases plain
    simp [CompilationUnit.lookup?, Variable.named?, other]

theorem settled (h : Change stores unit later) (settled : unit.Settled) : later.Settled := by
  cases h with
  | report | edit | string => exact settled
  | measure query => exact LayoutSession.Settled.step settled (.ask query)

end Change

namespace Changes

variable {stores : Prop} {unit later : CompilationUnit}

/-- What every single change keeps, any number of them keeps. -/
theorem keeps {P : CompilationUnit → Prop} (step : ∀ {a b}, Change stores a b → P a → P b)
    (h : Changes stores unit later) (start : P unit) : P later := by
  induction h with
  | refl => exact start
  | tail _ last ih => exact step last ih

theorem grows (h : Changes stores unit later) : unit.module.Extends later.module :=
  h.keeps (P := fun u => unit.module.Extends u.module) (fun step grown => grown.trans step.grows)
    (.refl _)

theorem types (h : Changes stores unit later) : later.types = unit.types :=
  h.keeps (P := fun u => u.types = unit.types) (fun step same => step.types.trans same) rfl

theorem target (h : Changes stores unit later) : later.target = unit.target :=
  h.keeps (P := fun u => u.target = unit.target) (fun step same => step.target.trans same) rfl

theorem scopes (h : Changes stores unit later) : later.scopes = unit.scopes :=
  h.keeps (P := fun u => u.scopes = unit.scopes) (fun step same => step.scopes.trans same) rfl

theorem lookup (h : Changes stores unit later) {name : String}
    (plain : CompilationUnit.isGenerated name = false) :
    later.lookup? name = unit.lookup? name :=
  h.keeps (P := fun u => u.lookup? name = unit.lookup? name)
    (fun step same => (step.lookup plain).trans same) rfl

theorem settled (h : Changes stores unit later) : unit.Settled → later.Settled :=
  h.keeps (P := CompilationUnit.Settled) fun step => step.settled

end Changes

/-! ## Operations that only change -/

theorem changes_frame (stores : Prop) : Frame stores (Changes stores) fun _ _ _ => True where
  refl _ := .refl
  trans first rest := first.trans rest
  report log := .single (.report log)
  measure query := .single (.measure query)
  constant {_ ty constant} _ := .single (.edit (.constant ty constant))
  position block := .single (.edit (.position block))
  load pointer := .single (.edit (.load pointer))
  store allowed _ value pointer := .single (.edit (.store allowed value pointer))
  gep pointer indices ty := .single (.edit (.gep pointer indices ty))

namespace FormM

variable {α β : Type} {stores : Prop}

/-- From any unit, the operation only makes changes, whether it succeeds or fails. -/
def Makes (stores : Prop) (action : FormM α) : Prop :=
  ∀ unit : CompilationUnit, Changes stores unit (action.outcome unit).2

namespace Makes

theorem changes {action : FormM α} (h : Makes stores action) {unit later : CompilationUnit}
    {answer : Except FormError α} (ended : action.outcome unit = (answer, later)) :
    Changes stores unit later := by
  have changed := h unit
  rwa [ended] at changed

theorem pure (a : α) : Makes stores (pure a) := fun _ => .refl

theorem get : Makes stores get := fun _ => .refl

theorem check (answer : Except FormError α) : Makes stores (check answer) :=
  fun _ => (changes_frame stores).leads_check answer

theorem fail (fault : FormFault) (span : Span) : Makes stores (fail fault span : FormM α) :=
  check _

theorem bind {action : FormM α} {next : α → FormM β} (first : Makes stores action)
    (rest : ∀ a, Makes stores (next a)) : Makes stores (action >>= next) :=
  fun unit => (changes_frame stores).leads_bind (first unit) fun a later _ => rest a later

theorem build {operation : Builder → α × Builder} {edit : Builder.Edit} (form : edit.OfForm stores)
    (same : ∀ builder, (operation builder).2 = builder.edit edit) :
    Makes stores (build operation) := by
  intro unit
  rw [outcome_build, same]
  exact .single (.edit form)

theorem position (block : BlockId) : Makes stores (position block) :=
  build (.position block) fun _ => rfl

theorem measure (query : LayoutQuery) :
    Makes stores (measure fun types target => query.run types target) :=
  fun _ => .single (.measure query)

theorem attempt {action : FormM α} (h : Makes stores action) : Makes stores (attempt action) :=
  fun unit => (changes_frame stores).leads_attempt (h unit)

theorem storeString (text : String) (span : Span) : Makes stores (storeString text span) := by
  intro unit
  obtain ⟨added, accepted, ended⟩ := outcome_storeString text span unit
  rw [ended]
  exact .single (.string accepted)

theorem constant (request : Request) (ty : Ty) (value : Constant) :
    Makes stores (constant request ty value) :=
  fun _ => (changes_frame stores).leads_constant trivial

theorem load (pointer : ValueId) : Makes stores (FormM.build (·.load pointer)) :=
  .build (.load pointer) fun _ => rfl

theorem gep (pointer : ValueId) (indices : List Nat) (ty : Ty) :
    Makes stores (FormM.build (·.gep pointer indices ty)) :=
  .build (.gep pointer indices ty) fun _ => rfl

theorem follow (place : TypedValue) (outer : Ty) : Makes stores (follow place outer) :=
  fun _ => (changes_frame stores).leads_follow place outer

theorem fieldAt (address : ValueId) (record : Ty) (name : String) (base field : Span)
    (request : Request) : Makes stores (fieldAt address record name base field request) :=
  fun _ => (changes_frame stores).leads_fieldAt address record name base field request

theorem access (address : ValueId) (stored : Ty) (request : Request) :
    Makes stores (access address stored request) :=
  fun _ => (changes_frame stores).leads_access address stored request

theorem parseType (node : Node) : Makes stores (parseType node) :=
  fun _ => (changes_frame stores).leads_parseType node

theorem measured (request : Request) (ty : Ty) (span : Span) (query : LayoutQuery) :
    Makes stores (measured request ty span fun types target => query.run types target) :=
  fun _ => (changes_frame stores).leads_measured request ty span query fun _ _ _ _ => trivial

end Makes
end FormM

open FormM (Makes)

section Tokens

variable {stores : Prop} (token : Token) (request : Request)

theorem Token.makes_speculate : Makes stores (token.speculate request) :=
  fun _ => (changes_frame stores).leads_speculate token request fun _ _ _ _ => trivial

/-- A token stores nothing. -/
theorem Token.makes_resolve : Makes stores (token.resolve request) :=
  fun _ => (changes_frame stores).leads_token token request
    (fun _ => (changes_frame stores).leads_integer token request fun _ _ => trivial)
    (fun _ => (changes_frame stores).leads_floating token request fun _ _ _ => trivial)
    (token.makes_speculate request)
    (fun _ => (changes_frame stores).leads_identifier token request fun _ _ _ => trivial)
    (fun _ unit => (changes_frame stores).leads_string token request
      (Makes.storeString token.text token.span unit))

end Tokens

section Forms

variable {stores : Prop} {first second : Operand} {span : Span} {request : Request}

theorem Operand.makes_measuring (query : Ty → LayoutQuery) :
    Makes stores (Form.measuring (fun types target ty => (query ty).run types target) span [first]
      request) :=
  fun _ => (changes_frame stores).leads_measuring Makes.measured span query

theorem Operand.makes_offsetOf : Makes stores (Form.offsetOf span [first, second] request) :=
  fun _ => (changes_frame stores).leads_offsetOf Makes.measured span

end Forms

theorem Evaluation.makes_action (evaluation : Evaluation) (request : Request) :
    Makes True (evaluation.action .core request) :=
  (changes_frame True).leads_action Token.makes_resolve Makes.measured trivial evaluation request

theorem Node.makes_resolve (node : Node) (request : Request) :
    Makes True (node.resolve .core request) :=
  Evaluation.makes_action (.any node) request

end FormLowering
