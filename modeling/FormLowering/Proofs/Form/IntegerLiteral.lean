import FormLowering.Proofs.Form.Integers
import FormLowering.Proofs.Number.Numeral

/-!
Integer literals. A numeral is accepted where its value is in the range of the kind that the
context asks for, and refused otherwise. The widest unsigned kind takes words only, so the upper
half of its range has no literal.
-/

namespace FormLowering

namespace Token

/-- The kind that a context asks an integer literal to be of: the primitive integer kind that it
wants, if it wants one, and else the native kind. -/
inductive Takes : Option Ty → Primitive → Prop
  | wanted {kind : Primitive} : kind.isInteger → Takes (some (.primitive kind)) kind
  | native {wanted? : Option Ty} :
      (∀ kind, wanted? = some (.primitive kind) → kind.isInteger = false) → Takes wanted? .int

theorem takes_integerKind (wanted? : Option Ty) : Takes wanted? (integerKind wanted?) := by
  unfold integerKind
  cases found : (wanted?.bind Ty.primitive?).filter Primitive.isInteger with
  | none =>
    refine .native fun kind wanted => ?_
    rw [wanted] at found
    simpa using Option.filter_eq_none_iff.mp found kind rfl
  | some kind =>
    obtain ⟨primitive, integer⟩ := Option.filter_eq_some_iff.mp found
    obtain ⟨ty, rfl, hkind⟩ := Option.bind_eq_some_iff.mp primitive
    cases ty with
    | primitive other =>
      cases hkind
      exact .wanted integer
    | pointer | array | struct | enum | param => cases hkind

/-- What a literal of a kind and a width may spell. Only of the widest unsigned kind is there more
in range than words. -/
structure Spells (token : Token) (kind : Primitive) (bits : Nat) (value : Int) : Prop where
  numeral : IsNumeral token.text.toList value
  inRange : InRange value bits kind.isSigned
  word : kind = .uint128 → IsWord value

end Token

/-- On a known platform an integer kind is no wider than words, and one that has more values than
words is the widest unsigned one. -/
theorem Target.width_of_isInteger {target : Target} (preset : target ∈ Target.presets)
    {kind : Primitive} (integer : kind.isInteger) :
    ∃ bits, target.bitWidth? kind = some bits ∧ bits ≠ 127 ∧ bits ≤ 128 ∧
      (kind.isSigned = false → kind ≠ .uint128 → bits ≤ 127) := by
  have widths : ∀ target ∈ Target.presets, ∀ kind ∈ Primitive.all, kind.isInteger →
      ∃ bits ∈ target.bitWidth? kind, bits ≠ 127 ∧ bits ≤ 128 ∧
        (kind.isSigned = false → kind ≠ .uint128 → bits ≤ 127) := by decide
  exact widths target preset kind kind.mem_all integer

theorem IsWord.of_inRange {value : Int} {bits : Nat} {signed : Bool}
    (range : InRange value bits signed) (narrow : bits ≤ 128)
    (unsigned : signed = false → bits ≤ 127) : IsWord value := by
  cases signed with
  | true => exact range.mono narrow
  | false =>
    obtain ⟨nonneg, below⟩ := range.mono (unsigned rfl)
    exact ⟨le_trans (by decide) nonneg, below⟩

namespace Token

variable {token : Token} {request : Request} {unit : CompilationUnit} {kind : Primitive}
  {bits : Nat} {value : Int}

theorem integerValue?_eq_some_iff {target : Target} (preset : target ∈ Target.presets)
    (integer : kind.isInteger) (width : target.bitWidth? kind = some bits) :
    integerValue? target kind token.text = some value ↔ token.Spells kind bits value := by
  obtain ⟨known, width', other, narrow, unsigned⟩ := Target.width_of_isInteger preset integer
  cases width.symm.trans width'
  have same : target.integerBits kind = bits := by
    rw [Target.integerBits, width, Option.getD_some]
  rw [integerValue?, Option.filter_eq_some_iff, readInteger?_eq_some_iff, same]
  constructor
  · rintro ⟨⟨numeral, word⟩, checked⟩
    exact ⟨numeral, inRange_of_fits word checked, fun _ => word⟩
  · rintro ⟨numeral, range, word⟩
    have isWord : IsWord value := by
      by_cases widest : kind = .uint128
      · exact word widest
      · exact .of_inRange range narrow fun signed => unsigned signed widest
    exact ⟨⟨numeral, isWord⟩, fits_of_inRange range fun _ => other⟩

theorem outcome_resolve_integer (integer : token.kind = .integer) :
    (token.resolve request).outcome unit =
      (token.integer request).outcome (unit.positioned request.block) := by
  unfold Token.resolve
  rw [integer, FormM.outcome_bind, FormM.outcome_position]
  rfl

/-- A literal that is accepted is one new constant. -/
theorem outcome_resolve_accepted (integer : token.kind = .integer)
    (accepted : integerValue? unit.target (integerKind request.wanted?) token.text = some value) :
    let ty := Ty.primitive (integerKind request.wanted?)
    let added := (unit.builder.position request.block).constant ty
      (.int (unit.target.integerBits (integerKind request.wanted?)) value)
    (token.resolve request).outcome unit =
      (.ok { block := request.block, value := added.1, ty },
        { unit with builder := added.2 }) := by
  intro ty added
  rw [outcome_resolve_integer integer]
  unfold Token.integer
  rw [FormM.outcome_bind, FormM.outcome_get]
  dsimp only [CompilationUnit.positioned]
  rw [accepted]
  rfl

theorem outcome_resolve_refused (integer : token.kind = .integer)
    (refused : integerValue? unit.target (integerKind request.wanted?) token.text = none) :
    let error : FormError :=
      ⟨.literalConstruction (.primitive (integerKind request.wanted?)) token.text, token.span⟩
    (token.resolve request).outcome unit =
      (.error error,
        { unit.positioned request.block with log := unit.log.push error.diagnostic }) := by
  intro error
  rw [outcome_resolve_integer integer]
  unfold Token.integer
  rw [FormM.outcome_bind, FormM.outcome_get]
  dsimp only [CompilationUnit.positioned]
  rw [refused]
  rfl

/-- An integer literal is accepted exactly where it spells a value of its kind. The answer is then a
constant of that value, as wide as the kind, and otherwise an error that names the kind and the
text. -/
theorem integer_literal_exact {unit : CompilationUnit} (preset : unit.target ∈ Target.presets)
    (token : Token) (integer : token.kind = .integer) (request : Request) :
    ∃ kind bits, Takes request.wanted? kind ∧ unit.target.bitWidth? kind = some bits ∧
      (∀ value, token.Spells kind bits value → ∃ id later,
        ((Node.atom token).resolveToken request).outcome unit =
          (.ok { block := request.block, value := id, ty := .primitive kind }, later) ∧
        later.module.value? id = some ⟨.constant (.int bits value), .primitive kind, none⟩) ∧
      ((¬∃ value, token.Spells kind bits value) → ∃ later,
        ((Node.atom token).resolveToken request).outcome unit =
          (.error ⟨.literalConstruction (.primitive kind) token.text, token.span⟩, later)) := by
  have isInteger := integerKind_isInteger request.wanted?
  obtain ⟨bits, width, -⟩ := Target.width_of_isInteger preset isInteger
  have same : unit.target.integerBits (integerKind request.wanted?) = bits := by
    rw [Target.integerBits, width, Option.getD_some]
  refine ⟨integerKind request.wanted?, bits, takes_integerKind _, width, ?_, ?_⟩
  · intro value spells
    have accepted := (integerValue?_eq_some_iff preset isInteger width).mpr spells
    refine ⟨_, _, outcome_resolve_accepted integer accepted, ?_⟩
    rw [same]
    exact (Builder.value?_pushValue _ _ _).trans (if_pos rfl)
  · intro unspelled
    have refused : integerValue? unit.target (integerKind request.wanted?) token.text = none := by
      rw [Option.eq_none_iff_forall_ne_some]
      intro value accepted
      exact unspelled ⟨value, (integerValue?_eq_some_iff preset isInteger width).mp accepted⟩
    exact ⟨_, outcome_resolve_refused integer refused⟩

/-- The least value of a byte with a sign, in hexadecimal digits. -/
theorem least_byte_accepted :
    (CompilationUnit.new "m" .i686 0).target ∈ Target.presets ∧ ∃ id later,
      ((Node.atom ⟨.integer, "-0x80", .dummy⟩).resolveToken
        { block := ⟨0⟩, wanted? := some (.primitive .int8) }).outcome (.new "m" .i686 0) =
          (.ok { block := ⟨0⟩, value := id, ty := .primitive .int8 }, later) ∧
        later.module.value? id = some ⟨.constant (.int 8 (-128)), .primitive .int8, none⟩ := by
  have preset : (CompilationUnit.new "m" .i686 0).target ∈ Target.presets := by decide
  obtain ⟨kind, bits, takes, width, accepted, -⟩ := integer_literal_exact preset
    ⟨.integer, "-0x80", .dummy⟩ rfl { block := ⟨0⟩, wanted? := some (.primitive .int8) }
  refine ⟨preset, ?_⟩
  cases takes with
  | native other => exact absurd (other .int8 rfl) (by decide)
  | wanted =>
    cases width
    have magnitude : IsMagnitude "0x80".toList 128 := readMagnitude?_eq_some_iff.mp (by decide)
    exact accepted (-128) ⟨.minus magnitude, by decide, nofun⟩

/-- Not every value of the widest unsigned kind has a literal: where its highest bit is set, it is
no word, and the numeral is refused. -/
theorem highest_bit_refused : ¬∀ (unit : CompilationUnit) (token : Token) (request : Request)
    (kind : Primitive) (bits : Nat) (value : Int), unit.target ∈ Target.presets →
    token.kind = .integer → Takes request.wanted? kind → unit.target.bitWidth? kind = some bits →
    IsNumeral token.text.toList value → InRange value bits kind.isSigned →
    ∃ result later,
      ((Node.atom token).resolveToken request).outcome unit = (.ok result, later) := by
  intro claim
  let unit : CompilationUnit := .new "m" .x86_64 0
  let token : Token := ⟨.integer, "0x80000000000000000000000000000000", .dummy⟩
  let request : Request := { block := ⟨0⟩, wanted? := some (.primitive .uint128) }
  have numeral : IsNumeral token.text.toList (2 ^ 127) :=
    .plain (readMagnitude?_eq_some_iff.mp (by decide))
  obtain ⟨result, later, accepted⟩ := claim unit token request .uint128 128 (2 ^ 127) (by decide)
    rfl (.wanted rfl) rfl numeral (by decide)
  have refused : integerValue? unit.target (integerKind request.wanted?) token.text = none := by
    decide
  exact nomatch accepted.symm.trans (outcome_resolve_refused rfl refused)

end Token
end FormLowering
