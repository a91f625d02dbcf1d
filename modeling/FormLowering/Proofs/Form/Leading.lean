import FormLowering.Proofs.Form.Application
import FormLowering.Proofs.Ty.Session
import FormLowering.Proofs.Unit.Freshness

/-!
What evaluations lead to. A relation of units that holds along each single change of a form holds
between the unit before an evaluation and the unit after it. The changes are those of the builder,
of the reports and of the memo; how strings are stored, and which constants are made, is left open.
-/

namespace FormLowering

namespace FormM

variable {α β : Type}

/-- The unit is related to what the operation leaves, whether it succeeds or fails. -/
def Leads (R : CompilationUnit → CompilationUnit → Prop) (unit : CompilationUnit)
    (action : FormM α) : Prop :=
  R unit (action.outcome unit).2

end FormM

open FormM (Leads)

/-- The relation holds along all changes of a form but strings, where the constants that are made
are allowed ones. Where `stores` does not hold, it need not hold along stores. -/
structure Frame (stores : Prop) (R : CompilationUnit → CompilationUnit → Prop)
    (Allowed : CompilationUnit → Ty → Constant → Prop) : Prop where
  refl : ∀ unit, R unit unit
  trans : ∀ {a b c}, R a b → R b c → R a c
  report : ∀ {unit : CompilationUnit} (log : Log), R unit { unit with log }
  measure : ∀ {unit : CompilationUnit} (query : LayoutQuery), R unit { unit with
    layout := ((query.run unit.types unit.target).run.run unit.layout).2 }
  constant : ∀ {unit ty constant}, Allowed unit ty constant →
    R unit { unit with builder := (unit.builder.constant ty constant).2 }
  position : ∀ {unit : CompilationUnit} (block : BlockId),
    R unit { unit with builder := unit.builder.position block }
  load : ∀ {unit : CompilationUnit} (pointer : ValueId),
    R unit { unit with builder := (unit.builder.load pointer).2 }
  store : stores → ∀ {unit : CompilationUnit} (value pointer : ValueId),
    R unit { unit with builder := (unit.builder.store value pointer).2 }
  gep : ∀ {unit : CompilationUnit} (pointer : ValueId) (indices : List Nat) (ty : Ty),
    R unit { unit with builder := (unit.builder.gep pointer indices ty).2 }

namespace Frame

variable {stores : Prop} {R : CompilationUnit → CompilationUnit → Prop}
  {Allowed : CompilationUnit → Ty → Constant → Prop} {unit : CompilationUnit} {α β : Type}

theorem leads_pure (frame : Frame stores R Allowed) (a : α) : Leads R unit (pure a) := frame.refl unit

theorem leads_check (frame : Frame stores R Allowed) (answer : Except FormError α) :
    Leads R unit (FormM.check answer) := by
  cases answer with
  | ok a => exact frame.refl unit
  | error error => exact frame.report _

theorem leads_fail (frame : Frame stores R Allowed) (fault : FormFault) (span : Span) :
    Leads R unit (FormM.fail fault span : FormM α) :=
  frame.leads_check _

theorem leads_bind (frame : Frame stores R Allowed) {action : FormM α} {next : α → FormM β}
    (first : Leads R unit action)
    (rest : ∀ a later, action.outcome unit = (.ok a, later) → Leads R later (next a)) :
    Leads R unit (action >>= next) := by
  simp only [Leads] at first ⊢
  rw [FormM.outcome_bind]
  rcases ended : action.outcome unit with ⟨error | a, later⟩
  · rw [ended] at first
    exact first
  · rw [ended] at first
    exact frame.trans first (rest a later ended)

theorem leads_bind_check (frame : Frame stores R Allowed) {answer : Except FormError β}
    {next : β → FormM α} (rest : ∀ b, answer = .ok b → Leads R unit (next b)) :
    Leads R unit (FormM.check answer >>= next) := by
  refine frame.leads_bind (frame.leads_check answer) fun b later ended => ?_
  obtain ⟨passed, rfl⟩ := FormM.of_check ended
  exact rest b passed

theorem leads_position (frame : Frame stores R Allowed) (block : BlockId) :
    Leads R unit (FormM.position block) := frame.position block

theorem leads_load (frame : Frame stores R Allowed) (pointer : ValueId) :
    Leads R unit (FormM.build (·.load pointer)) := frame.load pointer

theorem leads_gep (frame : Frame stores R Allowed) (pointer : ValueId) (indices : List Nat) (ty : Ty) :
    Leads R unit (FormM.build (·.gep pointer indices ty)) := frame.gep pointer indices ty

theorem leads_constant (frame : Frame stores R Allowed) {request : Request} {ty : Ty} {value : Constant}
    (allowed : Allowed unit ty value) : Leads R unit (FormM.constant request ty value) :=
  frame.leads_bind (frame.constant allowed) fun _ _ _ => frame.leads_pure _

/-- An attempt is what it attempts, and a failed one takes its reports back. -/
theorem leads_attempt (frame : Frame stores R Allowed) {action : FormM α} (h : Leads R unit action) :
    Leads R unit (FormM.attempt action) := by
  simp only [Leads] at h ⊢
  rw [FormM.outcome_attempt]
  rcases ended : action.outcome unit with ⟨error | a, later⟩
  · rw [ended] at h
    exact frame.trans h (frame.report _)
  · rw [ended] at h
    exact h

theorem leads_access (frame : Frame stores R Allowed) (address : ValueId) (stored : Ty)
    (request : Request) : Leads R unit (FormM.access address stored request) := by
  simp only [FormM.access]
  split
  · exact frame.leads_pure _
  · split
    · exact frame.leads_bind (frame.leads_gep _ _ _) fun _ _ _ => frame.leads_pure _
    · exact frame.leads_bind (frame.leads_load _) fun _ _ _ => frame.leads_pure _

theorem leads_follow (frame : Frame stores R Allowed) (place : TypedValue) (outer : Ty) :
    Leads R unit (FormM.follow place outer) := by
  simp only [FormM.follow]
  split
  · exact frame.leads_bind (frame.leads_load _) fun _ _ _ => frame.leads_pure _
  · exact frame.leads_pure _

theorem leads_fieldAt (frame : Frame stores R Allowed) (address : ValueId) (record : Ty) (name : String)
    (base field : Span) (request : Request) :
    Leads R unit (FormM.fieldAt address record name base field request) := by
  refine frame.leads_bind (frame.refl unit) fun _ _ _ => frame.leads_bind_check fun _ _ => ?_
  exact frame.leads_bind (frame.leads_gep _ _ _) fun _ _ _ => frame.leads_access _ _ _

theorem leads_storeAt (frame : Frame stores R Allowed) (allowed : stores)
    (source place : TypedValue) (stored : Ty) (request : Request) :
    Leads R unit (FormM.storeAt source place stored request) := by
  refine frame.leads_bind (frame.leads_position _) fun _ _ _ => ?_
  refine frame.leads_bind (frame.store allowed source.value place.value) fun _ _ _ => ?_
  split <;> exact frame.leads_pure _

theorem leads_parseType (frame : Frame stores R Allowed) (node : Node) :
    Leads R unit (FormM.parseType node) :=
  frame.leads_bind (frame.refl unit) fun _ _ _ => frame.leads_check _

/-- A measurement is a constant if the target can express it. -/
theorem leads_measured (frame : Frame stores R Allowed) (request : Request) (ty : Ty) (span : Span)
    (query : LayoutQuery)
    (allowed : ∀ n later, (FormM.measure fun types target => query.run types target).outcome unit =
      (.ok (.ok n), later) → later.target.canExpress n = true →
      Allowed later .size (.int later.target.pointerBits n)) :
    Leads R unit (FormM.measured request ty span fun types target => query.run types target) := by
  refine frame.leads_bind (frame.measure query) fun answer later ended => ?_
  cases answer with
  | error error => exact frame.leads_fail _ _
  | ok n =>
    refine frame.leads_bind (frame.refl later) fun _ _ read => ?_
    cases read
    dsimp only
    split
    · rename_i expressed
      exact frame.leads_constant (allowed n later ended expressed)
    · exact frame.leads_fail _ _

/-! ## Tokens -/

section Tokens

variable (token : Token) (request : Request)

theorem leads_integer (frame : Frame stores R Allowed)
    (allowed : ∀ value, Token.integerValue? unit.target (Token.integerKind request.wanted?)
      token.text = some value → Allowed unit (.primitive (Token.integerKind request.wanted?))
        (.int (unit.target.integerBits (Token.integerKind request.wanted?)) value)) :
    Leads R unit (token.integer request) := by
  refine frame.leads_bind (frame.refl unit) fun _ _ read => ?_
  cases read
  dsimp only
  split
  · rename_i value known
    exact frame.leads_constant (allowed value known)
  · exact frame.leads_fail _ _

theorem leads_floating (frame : Frame stores R Allowed)
    (allowed : ∀ ty kind value, Allowed unit ty (.float kind value)) :
    Leads R unit (token.floating request) := by
  unfold Token.floating
  dsimp only
  split
  · exact frame.leads_constant (allowed _ _ _)
  · exact frame.leads_fail _ _

/-- An attempt at a member of the wanted enum makes at most the constant of that member. -/
theorem leads_speculate (frame : Frame stores R Allowed)
    (allowed : ∀ enum value, unit.types.enum? enum.name = some enum →
      enum.member? token.text = some value →
      Allowed unit (.enum enum.name)
        (.struct [.int (unit.target.integerBits enum.underlying) value])) :
    Leads R unit (token.speculate request) := by
  refine frame.leads_bind (frame.refl unit) fun _ _ read => ?_
  cases read
  split
  · exact frame.leads_pure _
  · rename_i enum wanted
    obtain ⟨name, -, found⟩ := Option.bind_eq_some_iff.mp wanted
    have named : enum.name = name := by simpa using List.find?_some found
    subst named
    refine frame.leads_bind (frame.leads_attempt ?_) fun _ _ _ => frame.leads_pure _
    refine frame.leads_bind_check fun value member => ?_
    refine frame.leads_bind (frame.refl unit) fun _ _ read => ?_
    cases read
    refine frame.leads_constant (allowed enum value found ?_)
    unfold Token.memberOf at member
    split at member
    · split at member
      · rename_i known
        cases member
        exact known
      · cases member
    · cases member

theorem leads_identifier (frame : Frame stores R Allowed)
    (allowed : ∀ ty constant, token.namedConstant? = .ok (some (ty, constant)) →
      Allowed unit ty constant) : Leads R unit (token.identifier request) := by
  refine frame.leads_bind_check fun named found => ?_
  split
  · exact frame.leads_constant (allowed _ _ found)
  · refine frame.leads_bind (frame.refl unit) fun _ _ read => ?_
    cases read
    split
    · exact frame.leads_access _ _ _
    · exact frame.leads_fail _ _

theorem leads_string (frame : Frame stores R Allowed)
    (stored : Leads R unit (FormM.storeString token.text token.span)) :
    Leads R unit (token.string request) := by
  rw [Token.string_eq]
  split
  · exact frame.leads_fail _ _
  · refine frame.leads_bind stored fun _ _ _ => ?_
    exact frame.leads_bind (frame.leads_gep _ _ _) fun _ _ _ => frame.leads_pure _

theorem leads_token (frame : Frame stores R Allowed)
    (integer : ∀ unit, Leads R unit (token.integer request))
    (floating : ∀ unit, Leads R unit (token.floating request))
    (speculate : ∀ unit, Leads R unit (token.speculate request))
    (identifier : ∀ unit, Leads R unit (token.identifier request))
    (string : token.kind = .string → ∀ unit, Leads R unit (token.string request)) :
    Leads R unit (token.resolve request) := by
  refine frame.leads_bind (frame.leads_position _) fun _ _ _ => ?_
  cases kind : token.kind with
  | integer => exact integer _
  | floating => exact floating _
  | identifier =>
    refine frame.leads_bind (speculate _) fun found _ _ => ?_
    cases found with
    | some result => exact frame.leads_pure _
    | none => exact identifier _
  | string =>
    refine frame.leads_bind (speculate _) fun found _ _ => ?_
    cases found with
    | some result => exact frame.leads_pure _
    | none => exact string kind _

end Tokens

/-! ## Forms -/

section Forms

variable {first second : Operand} {request : Request}

theorem leads_field (frame : Frame stores R Allowed)
    (base : ∀ request unit, Leads R unit (first.resolve request)) :
    Leads R unit (FormM.resolveField first second request) := by
  rw [FormM.resolveField_eq]
  refine frame.leads_bind_check fun name _ => frame.leads_bind (base _ _) fun place _ _ => ?_
  refine frame.leads_bind (frame.leads_position _) fun _ _ _ => ?_
  split
  · exact frame.leads_fail _ _
  · exact frame.leads_bind (frame.leads_follow _ _) fun _ _ _ => frame.leads_fieldAt _ _ _ _ _ _

theorem leads_assign (frame : Frame stores R Allowed) (allowed : stores)
    (target : ∀ request unit, Leads R unit (first.resolve request))
    (value : ∀ request unit, Leads R unit (second.resolve request)) :
    Leads R unit (FormM.assign first second request) := by
  rw [FormM.assign_eq]
  refine frame.leads_bind (target _ _) fun place _ _ => ?_
  split
  · refine frame.leads_bind (value _ _) fun source _ _ => ?_
    split
    · exact frame.leads_storeAt allowed _ _ _ _
    · exact frame.leads_fail _ _
  · exact frame.leads_fail _ _

theorem leads_addressOf (frame : Frame stores R Allowed) (span : Span)
    (inner : ∀ request unit, Leads R unit (first.resolve request)) :
    Leads R unit (Form.addressOf span [first] request) := by
  unfold Form.addressOf
  dsimp only
  split
  · exact frame.leads_fail _ _
  · refine frame.leads_bind (inner _ _) fun answer _ _ => ?_
    split
    · exact frame.leads_pure _
    · exact frame.leads_fail _ _

theorem leads_dereference (frame : Frame stores R Allowed) (span : Span)
    (inner : ∀ request unit, Leads R unit (first.resolve request)) :
    Leads R unit (Form.dereference span [first] request) := by
  refine frame.leads_bind (inner _ _) fun answer _ _ => ?_
  split
  · exact frame.leads_fail _ _
  · split
    · exact frame.leads_pure _
    · exact frame.leads_bind (frame.leads_position _) fun _ _ _ => frame.leads_access _ _ _

variable (measured : ∀ (request : Request) (ty : Ty) (span : Span) (query : LayoutQuery)
  (unit : CompilationUnit),
  Leads R unit (FormM.measured request ty span fun types target => query.run types target))

include measured

theorem leads_measuring (frame : Frame stores R Allowed) (span : Span) (query : Ty → LayoutQuery) :
    Leads R unit (Form.measuring (fun types target ty => (query ty).run types target) span [first]
      request) :=
  frame.leads_bind (frame.leads_parseType _) fun ty _ _ => measured _ _ _ (query ty) _

theorem leads_offsetOf (frame : Frame stores R Allowed) (span : Span) :
    Leads R unit (Form.offsetOf span [first, second] request) := by
  refine frame.leads_bind (frame.leads_parseType _) fun ty _ _ => ?_
  split
  · exact frame.leads_fail _ _
  · refine frame.leads_bind_check fun field _ => frame.leads_bind (frame.refl _) fun _ _ read => ?_
    cases read
    split
    · exact frame.leads_fail _ _
    · rename_i index _
      exact measured _ _ _ (.fieldOffset ty index) _

end Forms

section Evaluations

variable
  (tokens : ∀ (token : Token) (request : Request) (unit : CompilationUnit),
    Leads R unit (token.resolve request))
  (measured : ∀ (request : Request) (ty : Ty) (span : Span) (query : LayoutQuery)
    (unit : CompilationUnit),
    Leads R unit (FormM.measured request ty span fun types target => query.run types target))

include tokens measured

/-- The relation holds along evaluations if it does along tokens and measurements. -/
theorem leads_resolve (frame : Frame stores R Allowed) (allowed : stores) (node : Node) :
    ∀ request unit, Leads R unit (node.resolve .core request) := by
  refine Node.core_induction (P := fun _ _ action => ∀ unit, Leads R unit action) tokens
    (fun _ _ _ _ _ => frame.leads_bind (frame.leads_position _) fun _ _ _ => frame.leads_fail _ _)
    ?_ node
  intro items span request name args viaCore action _ application ih unit
  refine frame.leads_bind (frame.leads_position _) fun _ _ _ => ?_
  cases application with
  | refused fault => exact frame.leads_fail _ _
  | field base => exact frame.leads_field (ih base (by simp))
  | assign target value => exact frame.leads_assign allowed (ih target (by simp)) (ih value (by simp))
  | addressOf operand => exact frame.leads_addressOf span (ih operand (by simp))
  | dereference operand => exact frame.leads_dereference span (ih operand (by simp))
  | alignmentOf => exact frame.leads_measuring measured span .alignment
  | sizeOf => exact frame.leads_measuring measured span .size
  | offsetOf => exact frame.leads_offsetOf measured span

theorem leads_action (frame : Frame stores R Allowed) (allowed : stores) (evaluation : Evaluation)
    (request : Request) (unit : CompilationUnit) :
    Leads R unit (evaluation.action .core request) := by
  have nodes (node : Node) := frame.leads_resolve tokens measured allowed node
  cases evaluation with
  | any node => exact nodes node request unit
  | token node =>
    cases node with
    | atom token => exact tokens token request unit
    | list items span =>
      exact frame.leads_bind (frame.leads_position _) fun _ _ _ => frame.leads_fail _ _
  | member base field => exact frame.leads_field (nodes base)
  | assign target value => exact frame.leads_assign allowed (nodes target) (nodes value)

end Evaluations

end Frame
end FormLowering
