import FormLowering.Proofs.Number.Decimal
import FormLowering.Proofs.Number.Numeral

/-!
The notation of floating numerals: an optional sign, then digits with at most one point among them
and an exponent or none, or the name of an infinity or of no number. A double is read from these
alone, and it is the one that the written number rounds to.
-/

namespace FormLowering

/-- The characters are an optional sign, which is a minus or not, and the rest. -/
inductive Signed : List Char → Bool → List Char → Prop
  | plain (rest : List Char) : Signed rest false rest
  | plus (rest : List Char) : Signed ('+' :: rest) false rest
  | minus (rest : List Char) : Signed ('-' :: rest) true rest

/-- Digits with at most one point among them: the natural that they spell without it, and how many
of them are behind it. -/
inductive IsMantissa : List Char → ℕ → ℕ → Prop
  | whole {chars : List Char} {n : ℕ} : IsNatural 10 chars n → IsMantissa chars n 0
  | point {whole fraction : List Char} {n : ℕ} : IsNatural 10 (whole ++ fraction) n →
      IsMantissa (whole ++ '.' :: fraction) n fraction.length

/-- A power of ten as it is written behind its mark, or nothing. -/
inductive IsExponent : List Char → ℤ → Prop
  | absent : IsExponent [] 0
  | marked {mark : Char} {chars digits : List Char} {negative : Bool} {n : ℕ} :
      mark = 'e' ∨ mark = 'E' → Signed chars negative digits → IsNatural 10 digits n →
      IsExponent (mark :: chars) (if negative then -n else n)

/-- A numeral without its sign, for the number `n * 10 ^ exponent`. -/
inductive IsDecimal : List Char → ℕ → ℤ → Prop
  | scaled {mantissa tail : List Char} {n places : ℕ} {exponent : ℤ} :
      IsMantissa mantissa n places → IsExponent tail exponent →
      IsDecimal (mantissa ++ tail) n (exponent - places)

/-- The characters are a floating numeral, and the double is its value. The value of a decimal is
rounded in units of the least double, and letters are taken in either case. -/
inductive IsFloat : List Char → Binary64 → Prop
  | decimal {chars rest : List Char} {negative : Bool} {n : ℕ} {exponent : ℤ} {x : Binary64} :
      Signed chars negative rest → IsDecimal rest n exponent →
      Binary64.Rounded .double negative (n * 10 ^ exponent * (2 ^ 1074 : ℕ)) x → IsFloat chars x
  | infinity {chars rest : List Char} {negative : Bool} {x : Binary64} :
      Signed chars negative rest →
      rest.map Char.toLower = "inf".toList ∨ rest.map Char.toLower = "infinity".toList →
      x.meaning = .infinite negative → IsFloat chars x
  | nan {chars rest : List Char} {negative : Bool} :
      Signed chars negative rest → rest.map Char.toLower = "nan".toList →
      IsFloat chars (.ofMeaning .nan)

section Reading

variable {n places digits : ℕ} {exponent value : ℤ} {chars rest tail : List Char} {negative : Bool}
  {c : Char} {x : Binary64}

/-! ## Signs and digits -/

theorem signed_splitSign (chars : List Char) :
    Signed chars (splitSign chars).1 (splitSign chars).2 := by
  unfold splitSign
  split
  · exact .minus _
  · exact .plus _
  · exact .plain _

/-- The sign is split off where what is behind it does not start like one. -/
theorem Signed.splitSign_eq (h : Signed chars negative rest)
    (unsigned : ∀ c ∈ rest.head?, c ≠ '+' ∧ c ≠ '-') : splitSign chars = (negative, rest) := by
  cases h with
  | plain =>
    unfold splitSign
    split
    · exact absurd rfl (unsigned '-' rfl).2
    · exact absurd rfl (unsigned '+' rfl).1
    · rfl
  | plus => rfl
  | minus => rfl

theorem not_sign_of_numeric (numeric : c.isDigit = true ∨ c = '.') : c ≠ '+' ∧ c ≠ '-' := by
  constructor
  · rintro rfl
    exact absurd numeric (by decide)
  · rintro rfl
    exact absurd numeric (by decide)

theorem IsDigit.isDigit_eq (h : IsDigit 10 c n) : c.isDigit = true := by
  obtain ⟨small, lower | upper⟩ := h
  · have row : ∀ n < 10, ("0123456789abcdef".toList[n]?).all Char.isDigit := by decide
    have found := row n small
    rw [lower] at found
    exact found
  · have row : ∀ n < 10, ("0123456789ABCDEF".toList[n]?).all Char.isDigit := by decide
    have found := row n small
    rw [upper] at found
    exact found

theorem IsNatural.isDigit_eq (h : IsNatural 10 chars n) : ∀ c ∈ chars, c.isDigit = true := by
  intro c mem
  obtain ⟨d, digit⟩ := h.isDigit c mem
  exact digit.isDigit_eq

theorem IsNatural.unsigned (h : IsNatural 10 chars n) : ∀ c ∈ chars.head?, c ≠ '+' ∧ c ≠ '-' :=
  fun c head => not_sign_of_numeric (.inl (h.isDigit_eq c (List.mem_of_mem_head? head)))

/-- Digits end where something else begins. -/
theorem span_isDigit (digits : ∀ c ∈ chars, c.isDigit)
    (stops : ∀ c ∈ rest.head?, c.isDigit = false) :
    (chars ++ rest).span Char.isDigit = (chars, rest) := by
  rw [List.span_eq_takeWhile_dropWhile, List.takeWhile_append_of_pos digits,
    List.dropWhile_append_of_pos digits]
  cases rest with
  | nil => simp
  | cons c rest => simp [stops c rfl]

/-! ## Decimals -/

/-- The integer behind the mark of an exponent. -/
def readPower? (chars : List Char) : Option ℤ :=
  (readNatural? 10 (splitSign chars).2).bind fun n =>
    some (if (splitSign chars).1 then -(n : ℤ) else n)

theorem readPower?_eq_some_iff : readPower? chars = some exponent ↔
    ∃ negative digits n, Signed chars negative digits ∧ IsNatural 10 digits n ∧
      exponent = if negative then -(n : ℤ) else n := by
  simp only [readPower?, Option.bind_eq_some_iff, readNatural?_eq_some_iff (by decide : 10 ≤ 16),
    Option.some.injEq]
  constructor
  · rintro ⟨n, natural, rfl⟩
    exact ⟨_, _, n, signed_splitSign chars, natural, rfl⟩
  · rintro ⟨negative, digits, n, signed, natural, rfl⟩
    rw [signed.splitSign_eq natural.unsigned]
    exact ⟨n, natural, rfl⟩

theorem isExponent_mark_iff {mark : Char} (known : mark = 'e' ∨ mark = 'E') :
    readPower? chars = some exponent ↔ IsExponent (mark :: chars) exponent := by
  rw [readPower?_eq_some_iff]
  constructor
  · rintro ⟨negative, digits, n, signed, natural, rfl⟩
    exact .marked known signed natural
  · rintro (_ | ⟨_, signed, natural⟩)
    exact ⟨_, _, _, signed, natural, rfl⟩

theorem readExponent?_eq_some_iff :
    readExponent? chars = some exponent ↔ IsExponent chars exponent := by
  unfold readExponent?
  split
  · constructor
    · rintro ⟨⟩
      exact .absent
    · rintro ⟨⟩
      rfl
  · exact isExponent_mark_iff (.inl rfl)
  · exact isExponent_mark_iff (.inr rfl)
  · rename_i empty small capital
    refine ⟨nofun, fun written => ?_⟩
    cases written with
    | absent => exact absurd rfl empty
    | marked mark =>
      rcases mark with rfl | rfl
      · exact absurd rfl (small _)
      · exact absurd rfl (capital _)

theorem IsExponent.head (h : IsExponent chars exponent) :
    ∀ c ∈ chars.head?, c.isDigit = false ∧ c ≠ '.' := by
  cases h with
  | absent => nofun
  | marked mark =>
    rintro c ⟨⟩
    rcases mark with rfl | rfl
    · decide
    · decide

/-- The digits behind a point, if there is one, and the rest. -/
def splitFraction : List Char → List Char × List Char
  | '.' :: rest => rest.span Char.isDigit
  | rest => ([], rest)

theorem readDecimal?_eq (negative : Bool) (chars : List Char) : readDecimal? negative chars = (do
    let (whole, rest) := chars.span Char.isDigit
    let (fraction, rest) := splitFraction rest
    let digits ← readNatural? 10 (whole ++ fraction)
    let exponent ← readExponent? rest
    return ⟨negative, digits, exponent - fraction.length⟩) := rfl

theorem splitFraction_point (chars : List Char) :
    splitFraction ('.' :: chars) = chars.span Char.isDigit := rfl

theorem splitFraction_append (chars : List Char) :
    (splitFraction chars = ([], chars)) ∨
      chars = '.' :: ((splitFraction chars).1 ++ (splitFraction chars).2) := by
  unfold splitFraction
  split
  · rw [List.span_eq_takeWhile_dropWhile, List.takeWhile_append_dropWhile]
    exact .inr rfl
  · exact .inl rfl

theorem IsExponent.splitFraction_eq (h : IsExponent chars exponent) :
    splitFraction chars = ([], chars) := by
  cases h with
  | absent => rfl
  | marked mark => rcases mark with rfl | rfl <;> rfl

/-- A mantissa is split from an exponent, for none of its characters starts one. -/
theorem IsDecimal.read (h : IsDecimal chars n exponent) :
    readDecimal? negative chars = some ⟨negative, n, exponent⟩ := by
  obtain ⟨mantissa, tail⟩ := h
  rw [readDecimal?_eq]
  cases mantissa with
  | whole natural =>
    rw [span_isDigit natural.isDigit_eq fun c head => (tail.head c head).1]
    dsimp only
    rw [tail.splitFraction_eq]
    dsimp only
    rw [List.append_nil, (readNatural?_eq_some_iff (by decide)).mpr natural,
      readExponent?_eq_some_iff.mpr tail]
    rfl
  | point natural =>
    obtain ⟨before, behind⟩ := List.forall_mem_append.mp natural.isDigit_eq
    rw [List.append_assoc, List.cons_append, span_isDigit before fun c head => by cases head; rfl]
    dsimp only
    rw [splitFraction_point, span_isDigit behind fun c head => (tail.head c head).1]
    dsimp only
    rw [(readNatural?_eq_some_iff (by decide)).mpr natural, readExponent?_eq_some_iff.mpr tail]
    rfl

theorem readDecimal?_eq_some_iff {d : Decimal} : readDecimal? negative chars = some d ↔
    d.negative = negative ∧ IsDecimal chars d.digits d.exponent := by
  constructor
  · intro read
    rw [readDecimal?_eq, List.span_eq_takeWhile_dropWhile] at read
    dsimp only at read
    obtain ⟨n, natural, read⟩ := Option.bind_eq_some_iff.mp read
    obtain ⟨exponent, tail, read⟩ := Option.bind_eq_some_iff.mp read
    cases read
    have natural := (readNatural?_eq_some_iff (by decide)).mp natural
    have tail := readExponent?_eq_some_iff.mp tail
    have whole := List.takeWhile_append_dropWhile (p := Char.isDigit) (l := chars)
    refine ⟨rfl, ?_⟩
    dsimp only
    rcases splitFraction_append (chars.dropWhile Char.isDigit) with absent | point
    · rw [absent] at natural tail ⊢
      have decimal := IsDecimal.scaled (.whole (List.append_nil _ ▸ natural)) tail
      rwa [whole] at decimal
    · have decimal := IsDecimal.scaled (.point natural) tail
      rwa [List.append_assoc, List.cons_append, ← point, whole] at decimal
  · obtain ⟨sign, n, exponent⟩ := d
    rintro ⟨rfl, decimal⟩
    exact decimal.read

theorem IsDecimal.head (h : IsDecimal chars n exponent) :
    ∃ c rest, chars = c :: rest ∧ (c.isDigit = true ∨ c = '.') := by
  obtain ⟨mantissa, tail⟩ := h
  cases mantissa with
  | whole natural =>
    obtain ⟨c, rest, rfl⟩ := List.exists_cons_of_ne_nil natural.1
    exact ⟨c, _, rfl, .inl (natural.isDigit_eq c (.head _))⟩
  | @point whole _ _ natural =>
    cases whole with
    | nil => exact ⟨'.', _, rfl, .inr rfl⟩
    | cons c rest => exact ⟨c, _, rfl, .inl (natural.isDigit_eq c (.head _))⟩

theorem IsDecimal.unsigned (h : IsDecimal chars n exponent) :
    ∀ c ∈ chars.head?, c ≠ '+' ∧ c ≠ '-' := by
  obtain ⟨c, rest, rfl, numeric⟩ := h.head
  rintro _ ⟨⟩
  exact not_sign_of_numeric numeric

/-! ## Names -/

theorem toLower_of_isDigit (digit : c.isDigit = true) : c.toLower = c := by
  have small : c.val ≤ '9'.val := of_decide_eq_true (Bool.and_eq_true_iff.mp digit).2
  refine dif_neg fun upper => ?_
  exact absurd (UInt32.le_trans upper.1 small) (by decide)

/-- The names of the values that no decimal has start with letters. -/
theorem IsDecimal.not_name (h : IsDecimal chars n exponent) :
    chars.map Char.toLower ≠ "inf".toList ∧ chars.map Char.toLower ≠ "infinity".toList ∧
      chars.map Char.toLower ≠ "nan".toList := by
  obtain ⟨c, rest, rfl, head⟩ := h.head
  have same : c.toLower = c := head.elim toLower_of_isDigit (by rintro rfl; rfl)
  rw [List.map_cons, same]
  have letters : c ≠ 'i' ∧ c ≠ 'n' := by
    constructor
    · rintro rfl
      exact absurd head (by decide)
    · rintro rfl
      exact absurd head (by decide)
  have first (name : List Char) (equal : c :: rest.map Char.toLower = name) :
      name.head? = some c := equal ▸ rfl
  refine ⟨fun inf => ?_, fun infinity => ?_, fun nan => ?_⟩
  · exact letters.1 (Option.some.inj (first _ inf)).symm
  · exact letters.1 (Option.some.inj (first _ infinity)).symm
  · exact letters.2 (Option.some.inj (first _ nan)).symm

theorem unsigned_of_name {name : List Char} (spelled : rest.map Char.toLower = name)
    (letter : name.head? = some 'i' ∨ name.head? = some 'n') :
    ∀ c ∈ rest.head?, c ≠ '+' ∧ c ≠ '-' := by
  intro c head
  have lower : c.toLower = 'i' ∨ c.toLower = 'n' := by
    rw [← spelled, List.head?_map, head] at letter
    exact letter.imp Option.some.inj Option.some.inj
  constructor
  · rintro rfl
    exact absurd lower (by decide)
  · rintro rfl
    exact absurd lower (by decide)

/-- A double is read from the floating numerals with their value, and from nothing else. -/
theorem readFloat?_eq_some_iff {text : String} :
    readFloat? text = some x ↔ IsFloat text.toList x := by
  constructor
  · intro read
    have signed := signed_splitSign text.toList
    unfold readFloat? at read
    generalize splitSign text.toList = split at *
    obtain ⟨negative, rest⟩ := split
    dsimp only at read signed
    split at read
    · rename_i infinite
      cases read
      exact .infinity signed infinite (Binary64.meaning_ofMeaning_infinite negative)
    · split at read
      · rename_i nan
        cases read
        exact .nan signed nan
      · obtain ⟨d, spelled, rfl⟩ := Option.map_eq_some_iff.mp read
        obtain ⟨rfl, decimal⟩ := readDecimal?_eq_some_iff.mp spelled
        exact .decimal signed decimal d.rounded_toBinary64
  · intro numeral
    unfold readFloat?
    cases numeral with
    | decimal signed decimal rounded =>
      rw [signed.splitSign_eq decimal.unsigned]
      dsimp only
      obtain ⟨noInf, noInfinity, noNan⟩ := decimal.not_name
      rw [if_neg (not_or.mpr ⟨noInf, noInfinity⟩), if_neg noNan, decimal.read, Option.map_some]
      exact congrArg some ((Decimal.rounded_toBinary64 _).unique rounded)
    | infinity signed name infinite =>
      have unsigned := name.elim (unsigned_of_name · (.inl rfl)) (unsigned_of_name · (.inl rfl))
      rw [signed.splitSign_eq unsigned]
      dsimp only
      rw [if_pos name]
      have number : x.meaning ≠ .nan := by
        rw [infinite]
        nofun
      exact congrArg some (infinite ▸ Binary64.ofMeaning_meaning number)
    | nan signed name =>
      rw [signed.splitSign_eq (unsigned_of_name name (.inr rfl))]
      dsimp only
      rw [name]
      rfl

end Reading
end FormLowering
