import FormLowering.Proofs.Form.Application
import FormLowering.Proofs.Meaning.Tokens
import FormLowering.Proofs.Typing.Reachable
import FormLowering.Proofs.Unit.Namespace

/-!
What depends on the type that a context asks for. Only tokens look at it: numbers and strings
always, and a name where the type is an enum that has it as a member. All else ends the same under
any hint, in the same unit with the same reports.
-/

namespace FormLowering

/-- The request with another hint. -/
def Request.asking (request : Request) (wanted? : Option Ty) : Request := { request with wanted? }

/-! ## Forms -/

/-- The form does not look at what the context asks for. -/
def Form.Unhinted (form : Form) : Prop :=
  ∀ (span : Span) (args : List Operand) (request : Request) (wanted? : Option Ty),
    form span args (request.asking wanted?) = form span args request

namespace FormTable

/-- A built-in form asks for its parts by itself and answers with places and blocks only. -/
theorem BuiltIn.unhinted {name : String} {form : Form} (h : BuiltIn name form) :
    form.Unhinted := by
  intro span args request wanted?
  cases h <;> rfl

theorem unhinted_apply (name : String) : (core.apply name).Unhinted := by
  intro span args request wanted?
  simp only [apply]
  cases found : core.find? name with
  | none => rfl
  | some form => exact (builtIn_of_find? found).unhinted span args request wanted?

/-- The prefix `core` is seen by the request, and the hint stays what it is. -/
theorem unhinted_dispatch : core.dispatch.Unhinted := by
  intro span items request wanted?
  simp only [dispatch]
  split
  · rfl
  · split
    · rfl
    · rfl
    · split
      · exact unhinted_apply _ span _ { request with viaCore := true } wanted?
      · rfl
    · exact unhinted_apply _ span _ { request with viaCore := false } wanted?

end FormTable

/-! ## Tokens -/

/-- The node looks at the hint: it is a number or a string, or it names a member of a registered
enum that the hint names. -/
inductive Node.Heeds (types : Registry) (wanted? : Option Ty) : Node → Prop
  | literal {token : Token} :
      token.kind = .integer ∨ token.kind = .floating ∨ token.kind = .string →
      Heeds types wanted? (.atom token)
  | member {token : Token} {name : String} {enum : EnumDef} {value : Int} :
      token.kind = .identifier → wanted? = some (.enum name) → types.enum? name = some enum →
      enum.member? token.text = some value → Heeds types wanted? (.atom token)

section Tokens

variable {token : Token} {unit : CompilationUnit} {wanted? : Option Ty}

theorem Node.Heeds.of_identifier {types : Registry} (identifier : token.kind = .identifier)
    (h : (Node.atom token).Heeds types wanted?) : ∃ name enum value,
      wanted? = some (.enum name) ∧ types.enum? name = some enum ∧
        enum.member? token.text = some value := by
  cases h with
  | literal kind =>
    rw [identifier] at kind
    rcases kind with kind | kind | kind <;> cases kind
  | member _ wanted registered member => exact ⟨_, _, _, wanted, registered, member⟩

theorem Token.isIdentifier_of_unheeded {types : Registry}
    (unheeded : ¬(Node.atom token).Heeds types wanted?) : token.kind = .identifier := by
  cases kind : token.kind with
  | identifier => rfl
  | integer => exact absurd (.literal (.inl kind)) unheeded
  | floating => exact absurd (.literal (.inr (.inl kind))) unheeded
  | string => exact absurd (.literal (.inr (.inr kind))) unheeded

theorem Token.member?_eq_none (unheeded : ¬(Node.atom token).Heeds unit.types wanted?) :
    token.member? unit.types unit.target wanted? = none := by
  rw [Option.eq_none_iff_forall_ne_some]
  intro literal found
  simp only [Token.member?, Option.bind_eq_bind, Option.bind_eq_some_iff] at found
  obtain ⟨enum, ⟨name, ⟨wanted, rfl, named⟩, registered⟩, value, member, -⟩ := found
  cases wanted with
  | enum other =>
    cases named
    exact unheeded (.member (isIdentifier_of_unheeded unheeded) rfl registered member)
  | primitive | pointer | array | struct | param => cases named

/-- An attempt that fails leaves the unit as it was, also where the log had no room for its
report. -/
theorem Token.outcome_speculate (request : Request)
    (unheeded : ¬(Node.atom token).Heeds unit.types request.wanted?) :
    (token.speculate request).outcome unit = (.ok none, unit) := by
  have identifier := isIdentifier_of_unheeded unheeded
  have unnamed := member?_eq_none unheeded
  rcases ended : (token.speculate request).outcome unit with ⟨error | found, later⟩
  · exact absurd ended (token.speculate_answers request unit)
  · rcases token.of_speculate ended identifier with ⟨ty, constant, _, _, named, _⟩ | ⟨rfl, rfl, _⟩
    · cases unnamed.symm.trans named
    · rfl

/-- Where no member is found, a name is resolved as without a hint. -/
theorem Token.outcome_resolve_unheeded (request : Request)
    (unheeded : ¬(Node.atom token).Heeds unit.types request.wanted?) :
    (token.resolve request).outcome unit =
      (token.identifier request).outcome (unit.positioned request.block) := by
  have attempted : (token.speculate request).outcome
      { unit with builder := unit.builder.position request.block } = (.ok none, _) :=
    outcome_speculate request unheeded
  unfold Token.resolve
  rw [isIdentifier_of_unheeded unheeded, FormM.outcome_bind, FormM.outcome_position]
  dsimp only
  rw [FormM.outcome_bind, attempted]
  rfl

end Tokens

/-- A list looks at no hint, whatever its parts are. -/
theorem Node.resolve_list_asking (items : List Node) (span : Span) (request : Request)
    (wanted? : Option Ty) : (Node.list items span).resolve .core (request.asking wanted?) =
      (Node.list items span).resolve .core request := by
  rw [Node.resolve, Node.resolve, FormTable.unhinted_dispatch]
  rfl

/-- What a node answers, and the unit that it leaves, is the same under any two hints that it does
not look at. A hint at an enum that is not registered, or that lacks the name, is as good as none. -/
theorem Node.hint_immaterial (unit : CompilationUnit) (request : Request) :
    (∀ (node : Node) (wanted? wanted?' : Option Ty), ¬node.Heeds unit.types wanted? →
      ¬node.Heeds unit.types wanted?' →
      (node.resolve .core (request.asking wanted?)).outcome unit =
        (node.resolve .core (request.asking wanted?')).outcome unit) ∧
    ∀ (token : Token) (name : String), token.kind = .identifier →
      (∀ enum, unit.types.enum? name = some enum → enum.member? token.text = none) →
      ((Node.atom token).resolve .core (request.asking (some (.enum name)))).outcome unit =
        ((Node.atom token).resolve .core (request.asking none)).outcome unit := by
  have immaterial : ∀ (node : Node) (wanted? wanted?' : Option Ty),
      ¬node.Heeds unit.types wanted? → ¬node.Heeds unit.types wanted?' →
      (node.resolve .core (request.asking wanted?)).outcome unit =
        (node.resolve .core (request.asking wanted?')).outcome unit := by
    intro node wanted? wanted?' unheeded unheeded'
    cases node with
    | atom token =>
      have first := Token.outcome_resolve_unheeded (request.asking wanted?) unheeded
      have second := Token.outcome_resolve_unheeded (request.asking wanted?') unheeded'
      exact first.trans second.symm
    | list items span => rw [Node.resolve_list_asking, Node.resolve_list_asking]
  refine ⟨immaterial, ?_⟩
  intro token name identifier outside
  apply immaterial
  · intro heeds
    obtain ⟨_, enum, _, wanted, registered, member⟩ := heeds.of_identifier identifier
    cases wanted
    rw [outside enum registered] at member
    cases member
  · intro heeds
    obtain ⟨_, _, _, wanted, -⟩ := heeds.of_identifier identifier
    cases wanted

/-- A full log keeps no trace of the attempt at a member that the enum does not have, and counts the
one report that the unknown name makes in either case. -/
theorem Node.unknown_member_unhinted :
    let unit : CompilationUnit := { CompilationUnit.new "m" .x86_64 1 with
      types := { enums := [⟨"color", .int, [("red", 0)]⟩] }
      log := { limit := 1, entries := [{ code := .internal }], dropped := 3 } }
    let request : Request := { block := ⟨0⟩ }
    let node : Node := .atom ⟨.identifier, "green", .dummy⟩
    unit.log.isFull = true ∧
      (node.resolve .core (request.asking (some (.enum "color")))).outcome unit =
        (node.resolve .core (request.asking (some (.primitive .int)))).outcome unit := by
  intro unit request node
  have immaterial := (hint_immaterial unit request).1 node
  refine ⟨rfl, immaterial _ _ ?_ ?_⟩
  · intro heeds
    obtain ⟨_, _, _, wanted, registered, member⟩ := heeds.of_identifier rfl
    cases wanted
    cases registered
    cases member
  · intro heeds
    obtain ⟨_, _, _, wanted, -⟩ := heeds.of_identifier rfl
    cases wanted

end FormLowering
