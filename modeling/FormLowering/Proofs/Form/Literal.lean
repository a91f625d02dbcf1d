import FormLowering.Execution.Datum
import FormLowering.Proofs.Form.IntegerLiteral
import FormLowering.Proofs.Number.FloatNumeral

/-!
What a token denotes by itself, in the type that a context wants. A numeral is its value, rounded to
the precision of its type; a member of the wanted enum is its representation; and there are names of
the truth values and of characters. No token denotes two things.
-/

namespace FormLowering

/-- The only thing with a property, if one has it. -/
noncomputable def the? {α : Type} (p : α → Prop) : Option α := by
  classical
  exact if h : ∃ a, p a then some h.choose else none

namespace Token

/-- The type and the precision of a floating literal: those of the wanted type, if it is a wide
floating one, and else single precision. -/
inductive TakesFloat : Option Ty → Primitive → FloatKind → Prop
  | double : TakesFloat (some (.primitive .double)) .double .double
  | extended : TakesFloat (some (.primitive .longDouble)) .longDouble .extended
  | single {wanted? : Option Ty} : wanted? ≠ some (.primitive .double) →
      wanted? ≠ some (.primitive .longDouble) → TakesFloat wanted? .float .single

/-- What a precision keeps of a double: a finite number is rounded once more to single precision. -/
inductive Keeps : FloatKind → Binary64 → Binary64 → Prop
  | rounded {x y : Binary64} {negative : Bool} {units : ℕ} : x.meaning = .finite negative units →
      Binary64.Rounded .single negative units y → Keeps .single x y
  | special {x : Binary64} : (∀ negative units, x.meaning ≠ .finite negative units) →
      Keeps .single x x
  | double (x : Binary64) : Keeps .double x x
  | extended (x : Binary64) : Keeps .extended x x

/-- What stands behind the mark of a character: the character, if it is one byte, or its name. -/
inductive CharName : List Char → Int → Prop
  | ascii {c : Char} : c.toNat < 128 → CharName [c] c.toNat
  | null : CharName "NULL".toList 0
  | tab : CharName "TAB".toList 9
  | newline : CharName "NEWLINE".toList 10
  | carriage : CharName "CARRIAGE".toList 13
  | space : CharName "SPACE".toList 32
  | eof : CharName "EOF".toList (-1)

/-- The names of the truth values and of characters. -/
inductive Names : String → Primitive → Int → Prop
  | true : Names "true" .bool 1
  | false : Names "false" .bool 0
  | char {text : String} {name : List Char} {value : Int} :
      text.toList = '#' :: '\\' :: name → CharName name value → Names text .char value

/-- The token is a constant of the type by itself, and the datum is its value. A member of the
wanted enum comes before a name that always has the same value. -/
inductive Denotes (token : Token) (types : Registry) (wanted? : Option Ty) : Ty → Datum → Prop
  | integer {kind : Primitive} {value : Int} : token.kind = .integer → Takes wanted? kind →
      IsNumeral token.text.toList value → Denotes token types wanted? (.primitive kind) (.int value)
  | floating {kind : Primitive} {precision : FloatKind} {x y : Binary64} :
      token.kind = .floating → TakesFloat wanted? kind precision → IsFloat token.text.toList x →
      Keeps precision x y → Denotes token types wanted? (.primitive kind) (.float y)
  | member {enum : EnumDef} {name : String} {value : Int} : token.kind = .identifier →
      wanted? = some (.enum name) → types.enum? name = some enum → enum.Lists token.text value →
      Denotes token types wanted? (.enum enum.name) (.aggregate [.int value])
  | named {kind : Primitive} {value : Int} : token.kind = .identifier →
      (∀ name enum member, wanted? = some (.enum name) → types.enum? name = some enum →
        ¬enum.Lists token.text member) →
      Names token.text kind value → Denotes token types wanted? (.primitive kind) (.int value)

/-- What the token denotes, if it denotes anything. -/
noncomputable def denoted? (token : Token) (types : Registry) (wanted? : Option Ty) :
    Option (Ty × Datum) :=
  the? fun denoted => token.Denotes types wanted? denoted.1 denoted.2

/-! ## Numbers -/

section Numbers

variable {wanted? : Option Ty} {kind : Primitive} {precision : FloatKind} {x y : Binary64}

theorem Takes.unique {other : Primitive} (h : Takes wanted? kind) (h' : Takes wanted? other) :
    kind = other := by
  cases h with
  | wanted integer =>
    cases h' with
    | wanted => rfl
    | native unwanted => exact absurd (unwanted _ rfl) (by simp [integer])
  | native unwanted =>
    cases h' with
    | wanted integer => exact absurd (unwanted _ rfl) (by simp [integer])
    | native => rfl

theorem TakesFloat.unique {kind' : Primitive} {precision' : FloatKind}
    (h : TakesFloat wanted? kind precision) (h' : TakesFloat wanted? kind' precision') :
    kind = kind' ∧ precision = precision' := by
  cases h with
  | double =>
    cases h' with
    | double => exact ⟨rfl, rfl⟩
    | single other => exact absurd rfl other
  | extended =>
    cases h' with
    | extended => exact ⟨rfl, rfl⟩
    | single _ other => exact absurd rfl other
  | single notDouble notExtended =>
    cases h' with
    | double => exact absurd rfl notDouble
    | extended => exact absurd rfl notExtended
    | single => exact ⟨rfl, rfl⟩

theorem roundedTo_eq_iff : roundedTo precision x = y ↔ Keeps precision x y := by
  constructor
  · rintro rfl
    cases precision with
    | single =>
      by_cases finite : ∃ negative units, x.meaning = .finite negative units
      · obtain ⟨negative, units, finite⟩ := finite
        exact .rounded finite (Binary64.rounded_toSingle finite)
      · have other : ∀ negative units, x.meaning ≠ .finite negative units :=
          fun negative units same => finite ⟨negative, units, same⟩
        rw [roundedTo, Binary64.toSingle_eq_self other]
        exact .special other
    | double => exact .double x
    | extended => exact .extended x
  · intro keeps
    cases keeps with
    | rounded finite rounded => exact (Binary64.rounded_toSingle finite).unique rounded
    | special other => exact Binary64.toSingle_eq_self other
    | double => rfl
    | extended => rfl

theorem Keeps.unique {z : Binary64} (h : Keeps precision x y) (h' : Keeps precision x z) : y = z :=
  (roundedTo_eq_iff.mpr h).symm.trans (roundedTo_eq_iff.mpr h')

end Numbers

/-! ## Names -/

section Names

variable {token : Token} {kind : Primitive} {value : Int}

theorem CharName.of_mem_namedChars : ∀ entry ∈ namedChars, CharName entry.1.toList entry.2 := by
  unfold namedChars
  simp only [List.forall_mem_cons]
  exact ⟨.null, .tab, .space, .newline, .carriage, .eof, nofun⟩

theorem lookup_namedChars (c : Char) : namedChars.lookup (String.ofList [c]) = none := by
  have long : ∀ entry ∈ namedChars, entry.1.toList.length ≠ 1 := by decide
  rw [List.lookup_eq_none_iff]
  intro entry mem
  rw [bne_iff_ne]
  intro same
  exact long entry mem (by rw [← same, String.toList_ofList, List.length_singleton])

theorem charByte?_eq_some_iff {name : List Char} :
    charByte? name = some value ↔ CharName name value := by
  constructor
  · intro h
    unfold charByte? at h
    cases found : namedChars.lookup (String.ofList name) with
    | some byte =>
      rw [found] at h
      cases h
      obtain ⟨before, after, split, -⟩ := List.lookup_eq_some_iff.mp found
      have mem : (String.ofList name, value) ∈ namedChars :=
        split ▸ List.mem_append_right before List.mem_cons_self
      have spelled := CharName.of_mem_namedChars _ mem
      rwa [String.toList_ofList] at spelled
    | none =>
      rw [found] at h
      split at h
      · cases ‹none = some _›
      · split at h
        · rename_i ascii
          cases h
          exact .ascii ascii
        · cases h
      · cases h
  · intro h
    cases h with
    | @ascii c ascii =>
      unfold charByte?
      rw [lookup_namedChars]
      exact if_pos ascii
    | null => rfl
    | tab => rfl
    | newline => rfl
    | carriage => rfl
    | space => rfl
    | eof => rfl

theorem read_eq_byte_iff {text : String} : CharLiteral.read text = .byte value ↔
    ∃ name, text.toList = '#' :: '\\' :: name ∧ CharName name value := by
  constructor
  · intro h
    unfold CharLiteral.read at h
    split at h
    · rename_i c rest spelled
      cases byte : charByte? (c :: rest) with
      | none =>
        rw [byte] at h
        cases h
      | some found =>
        rw [byte] at h
        cases h
        exact ⟨_, spelled, charByte?_eq_some_iff.mp byte⟩
    · cases h
  · rintro ⟨name, spelled, byte⟩
    cases name with
    | nil => cases byte
    | cons c rest =>
      unfold CharLiteral.read
      rw [spelled]
      simp only [charByte?_eq_some_iff.mpr byte, Option.map_some, Option.getD_some]

/-- A name that always has the same value is read as a constant of it. -/
theorem Names.read (h : Names token.text kind value) :
    ∃ bits, token.namedConstant? = .ok (some (.primitive kind, .int bits value)) := by
  obtain ⟨tokenKind, text, span⟩ := token
  dsimp only at h
  unfold namedConstant?
  dsimp only
  cases h with
  | true => exact ⟨1, rfl⟩
  | false => exact ⟨1, rfl⟩
  | char spelled name =>
    have first : text.toList.head? = some '#' := by rw [spelled, List.head?_cons]
    have notTrue : text ≠ "true" := by
      rintro rfl
      exact absurd first (by decide)
    have notFalse : text ≠ "false" := by
      rintro rfl
      exact absurd first (by decide)
    rw [if_neg notTrue, if_neg notFalse, read_eq_byte_iff.mpr ⟨_, spelled, name⟩]
    exact ⟨8, rfl⟩

theorem Names.unique {kind' : Primitive} {value' : Int} {text : String} (h : Names text kind value)
    (h' : Names text kind' value') : kind = kind' ∧ value = value' := by
  let token : Token := ⟨.identifier, text, .dummy⟩
  obtain ⟨bits, read⟩ :
      ∃ bits, token.namedConstant? = .ok (some (.primitive kind, .int bits value)) :=
    Names.read h
  obtain ⟨bits', read'⟩ :
      ∃ bits, token.namedConstant? = .ok (some (.primitive kind', .int bits value')) :=
    Names.read h'
  cases read.symm.trans read'
  exact ⟨rfl, rfl⟩

end Names

/-! ## Tokens -/

section Tokens

variable {token : Token} {types : Registry} {wanted? : Option Ty} {ty ty' : Ty}
  {datum datum' : Datum}

/-- No token denotes two things. -/
theorem Denotes.unique (h : token.Denotes types wanted? ty datum)
    (h' : token.Denotes types wanted? ty' datum') : ty = ty' ∧ datum = datum' := by
  cases h with
  | integer integer takes numeral =>
    cases h' with
    | integer _ takes' numeral' =>
      cases takes.unique takes'
      cases numeral.unique numeral'
      exact ⟨rfl, rfl⟩
    | floating other => exact nomatch integer.symm.trans other
    | member other => exact nomatch integer.symm.trans other
    | named other => exact nomatch integer.symm.trans other
  | floating floating takes numeral keeps =>
    cases h' with
    | floating _ takes' numeral' keeps' =>
      obtain ⟨rfl, rfl⟩ := takes.unique takes'
      rw [← readFloat?_eq_some_iff] at numeral numeral'
      cases numeral.symm.trans numeral'
      cases keeps.unique keeps'
      exact ⟨rfl, rfl⟩
    | integer other => exact nomatch floating.symm.trans other
    | member other => exact nomatch floating.symm.trans other
    | named other => exact nomatch floating.symm.trans other
  | member identifier wanted registered lists =>
    cases h' with
    | member _ wanted' registered' lists' =>
      cases wanted.symm.trans wanted'
      cases registered.symm.trans registered'
      rw [← EnumDef.member?_eq_some_iff] at lists lists'
      cases lists.symm.trans lists'
      exact ⟨rfl, rfl⟩
    | integer other => exact nomatch identifier.symm.trans other
    | floating other => exact nomatch identifier.symm.trans other
    | named _ none => exact absurd lists (none _ _ _ wanted registered)
  | named identifier none name =>
    cases h' with
    | named _ _ name' =>
      obtain ⟨rfl, rfl⟩ := name.unique name'
      exact ⟨rfl, rfl⟩
    | integer other => exact nomatch identifier.symm.trans other
    | floating other => exact nomatch identifier.symm.trans other
    | member _ wanted registered lists => exact absurd lists (none _ _ _ wanted registered)

/-- The member of the wanted enum that a token names. -/
def member? (token : Token) (types : Registry) (target : Target) (wanted? : Option Ty) :
    Option (Ty × Constant) := do
  let enum ← (wanted?.bind Ty.enumName?).bind types.enum?
  let value ← enum.member? token.text
  return (.enum enum.name, .struct [.int (target.integerBits enum.underlying) value])

end Tokens

end Token
end FormLowering
