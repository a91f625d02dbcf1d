import FormLowering.Proofs.Number.Range

/-!
The notation of integers: an optional sign, then decimal digits, or hexadecimal digits after their
mark. An integer is read from the numerals of words, and from nothing else.
-/

namespace FormLowering

/-- The character is the digit of value `n` in the base, in either case of letters. -/
def IsDigit (base : Nat) (c : Char) (n : Nat) : Prop :=
  n < base ∧ ("0123456789abcdef".toList[n]? = some c ∨ "0123456789ABCDEF".toList[n]? = some c)

/-- The characters are one digit or more, the most significant first, and `n` is their value. -/
def IsNatural (base : Nat) (chars : List Char) (n : Nat) : Prop :=
  chars ≠ [] ∧ ∃ digits, List.Forall₂ (IsDigit base) chars digits ∧
    n = Nat.ofDigits base digits.reverse

/-- A numeral without its sign. -/
inductive IsMagnitude : List Char → Nat → Prop
  | decimal {chars : List Char} {n : Nat} : IsNatural 10 chars n → IsMagnitude chars n
  | hexadecimal {mark : Char} {chars : List Char} {n : Nat} : mark = 'x' ∨ mark = 'X' →
      IsNatural 16 chars n → IsMagnitude ('0' :: mark :: chars) n

/-- The characters are a numeral, and the integer is its value, whatever its size. -/
inductive IsNumeral : List Char → Int → Prop
  | plain {chars : List Char} {n : Nat} : IsMagnitude chars n → IsNumeral chars n
  | plus {chars : List Char} {n : Nat} : IsMagnitude chars n → IsNumeral ('+' :: chars) n
  | minus {chars : List Char} {n : Nat} : IsMagnitude chars n → IsNumeral ('-' :: chars) (-n)

/-! ## Digits -/

section Digits

variable {base high n d : Nat} {c : Char} {chars : List Char}

/-- Where characters stand in a row one after the other, each stands at its distance from the
first. -/
theorem getElem?_of_range {row : List Char} {first last : Char} (start : Nat)
    (stands : ∀ d ≤ last.toNat - first.toNat,
      row[d + start]? = some (Char.ofNat (first.toNat + d)))
    (range : first ≤ c ∧ c ≤ last) : row[c.toNat - first.toNat + start]? = some c := by
  have above : first.toNat ≤ c.toNat := range.1
  have below : c.toNat ≤ last.toNat := range.2
  rw [stands _ (Nat.sub_le_sub_right below _), Nat.add_sub_cancel' above, Char.ofNat_toNat]

theorem digit?_hexadecimal : digit? 16 c = some n ↔ IsDigit 16 c n := by
  constructor
  · intro h
    obtain ⟨value, small⟩ := Option.filter_eq_some_iff.mp h
    refine ⟨of_decide_eq_true small, ?_⟩
    split at value
    · rename_i range
      cases value
      exact .inl (getElem?_of_range 0 (by decide) range)
    · split at value
      · rename_i range
        cases value
        exact .inl (getElem?_of_range 10 (by decide) range)
      · split at value
        · rename_i range
          cases value
          exact .inr (getElem?_of_range 10 (by decide) range)
        · cases value
  · rintro ⟨small, lower | upper⟩
    · have read : ∀ d < 16, ("0123456789abcdef".toList[d]?).bind (digit? 16) = some d := by decide
      have found := read n small
      rw [lower] at found
      exact found
    · have read : ∀ d < 16, ("0123456789ABCDEF".toList[d]?).bind (digit? 16) = some d := by decide
      have found := read n small
      rw [upper] at found
      exact found

theorem digit?_eq_some_iff (base_le : base ≤ 16) : digit? base c = some n ↔ IsDigit base c n := by
  have narrowed : digit? base c = (digit? 16 c).filter (· < base) := by
    simp only [digit?, Option.filter_filter]
    congr 1
    funext d
    by_cases small : d < base
    · simp [small, small.trans_le base_le]
    · simp [small]
  rw [narrowed, Option.filter_eq_some_iff, digit?_hexadecimal]
  constructor
  · rintro ⟨⟨_, row⟩, small⟩
    exact ⟨of_decide_eq_true small, row⟩
  · rintro ⟨small, row⟩
    exact ⟨⟨small.trans_le base_le, row⟩, decide_eq_true small⟩

theorem readDigits?_eq_some_iff (base_le : base ≤ 16) : readDigits? base high chars = some n ↔
    ∃ digits, List.Forall₂ (IsDigit base) chars digits ∧
      n = Nat.ofDigits base digits.reverse + base ^ digits.length * high := by
  induction chars generalizing high with
  | nil =>
    constructor
    · intro h
      cases h
      exact ⟨[], .nil, by simp⟩
    · rintro ⟨digits, spelled, rfl⟩
      cases spelled
      simp [readDigits?]
  | cons c rest ih =>
    simp only [readDigits?, Option.bind_eq_bind, Option.bind_eq_some_iff, ih,
      digit?_eq_some_iff base_le]
    constructor
    · rintro ⟨d, digit, digits, spelled, rfl⟩
      refine ⟨d :: digits, .cons digit spelled, ?_⟩
      simp only [List.reverse_cons, Nat.ofDigits_append, Nat.ofDigits_singleton,
        List.length_reverse, List.length_cons]
      ring
    · rintro ⟨_, spelled, rfl⟩
      cases spelled with
      | @cons _ d _ digits digit spelled =>
        refine ⟨d, digit, digits, spelled, ?_⟩
        simp only [List.reverse_cons, Nat.ofDigits_append, Nat.ofDigits_singleton,
          List.length_reverse, List.length_cons]
        ring

theorem readNatural?_eq_some_iff (base_le : base ≤ 16) :
    readNatural? base chars = some n ↔ IsNatural base chars n := by
  unfold readNatural?
  split
  · rename_i empty
    rw [List.isEmpty_iff.mp empty]
    exact ⟨nofun, fun natural => absurd rfl natural.1⟩
  · rename_i full
    rw [readDigits?_eq_some_iff base_le]
    simp only [Nat.mul_zero, Nat.add_zero]
    exact ⟨fun spelled => ⟨by simpa using full, spelled⟩, fun natural => natural.2⟩

theorem isDigit_digitChar (small : d < base) (base_le : base ≤ 16) :
    IsDigit base (Nat.digitChar d) d := by
  have row : ∀ d < 16, "0123456789abcdef".toList[d]? = some (Nat.digitChar d) := by decide
  exact ⟨small, .inl (row d (small.trans_le base_le))⟩

theorem IsDigit.isNatural (h : IsDigit base c d) : IsNatural base [c] d :=
  ⟨List.cons_ne_nil _ _, [d], .cons h .nil, (Nat.ofDigits_singleton ..).symm⟩

theorem IsNatural.concat (h : IsNatural base chars n) (digit : IsDigit base c d) :
    IsNatural base (chars ++ [c]) (base * n + d) := by
  obtain ⟨full, digits, spelled, rfl⟩ := h
  refine ⟨by simp, digits ++ [d], List.rel_append spelled (.cons digit .nil), ?_⟩
  rw [List.reverse_append, List.reverse_singleton, List.singleton_append, Nat.ofDigits_cons]
  exact Nat.add_comm ..

/-- A natural is spelled by its digits: the last one is the remainder, and the quotient has the
others. -/
theorem isNatural_toDigits (one_lt : 1 < base) (base_le : base ≤ 16) (n : Nat) :
    IsNatural base (Nat.toDigits base n) n := by
  induction n using Nat.strong_induction_on with
  | _ n ih =>
    rw [Nat.toDigits_eq_if one_lt]
    split
    · rename_i small
      exact (isDigit_digitChar small base_le).isNatural
    · rename_i large
      have positive : 0 < base := Nat.zero_lt_of_lt one_lt
      have smaller : n / base < n :=
        Nat.div_lt_self (positive.trans_le (Nat.le_of_not_lt large)) one_lt
      have last := isDigit_digitChar (Nat.mod_lt n positive) base_le
      have spelled := (ih (n / base) smaller).concat last
      rwa [Nat.div_add_mod] at spelled

/-- A natural is written as a numeral of itself. -/
theorem isNatural_toString (n : Nat) : IsNatural 10 (toString n).toList n := by
  rw [show (toString n).toList = Nat.toDigits 10 n from Nat.toList_repr]
  exact isNatural_toDigits (by decide) (by decide) n

theorem IsNatural.isDigit (h : IsNatural base chars n) : ∀ c ∈ chars, ∃ d, IsDigit base c d := by
  obtain ⟨-, digits, spelled, -⟩ := h
  induction spelled with
  | nil => nofun
  | cons digit _ ih => exact List.forall_mem_cons.mpr ⟨⟨_, digit⟩, ih⟩

/-- What is not read as a digit is none. -/
theorem not_isDigit_of_digit? (none : digit? base c = none) (base_le : base ≤ 16 := by decide) :
    ¬∃ d, IsDigit base c d := by
  rintro ⟨d, digit⟩
  rw [(digit?_eq_some_iff base_le).mpr digit] at none
  cases none

end Digits

section Numerals

variable {chars rest : List Char} {n : Nat} {value : Int}

/-- The mark decides the base: no digit of base ten is spelled like it. -/
theorem readMagnitude?_eq_some_iff :
    readNatural? (splitBase chars).1 (splitBase chars).2 = some n ↔ IsMagnitude chars n := by
  unfold splitBase
  split
  · dsimp only
    rw [readNatural?_eq_some_iff (by decide)]
    constructor
    · exact .hexadecimal (.inl rfl)
    · intro magnitude
      cases magnitude with
      | decimal natural =>
        have mark := natural.isDigit _ (.tail _ (.head _))
        exact absurd mark (not_isDigit_of_digit? rfl)
      | hexadecimal mark natural => exact natural
  · dsimp only
    rw [readNatural?_eq_some_iff (by decide)]
    constructor
    · exact .hexadecimal (.inr rfl)
    · intro magnitude
      cases magnitude with
      | decimal natural =>
        have mark := natural.isDigit _ (.tail _ (.head _))
        exact absurd mark (not_isDigit_of_digit? rfl)
      | hexadecimal mark natural => exact natural
  · rename_i small large
    dsimp only
    rw [readNatural?_eq_some_iff (by decide)]
    constructor
    · exact .decimal
    · intro magnitude
      cases magnitude with
      | decimal natural => exact natural
      | hexadecimal mark natural =>
        rcases mark with rfl | rfl
        · exact absurd rfl (small _)
        · exact absurd rfl (large _)

/-- A magnitude starts with a digit. -/
theorem IsMagnitude.head {c : Char} (h : IsMagnitude (c :: chars) n) : ∃ d, IsDigit 10 c d := by
  cases h with
  | decimal natural => exact natural.isDigit _ (.head _)
  | hexadecimal mark natural => exact ⟨0, by decide, .inl rfl⟩

theorem IsMagnitude.unsigned (h : IsMagnitude chars n) : splitSign chars = (false, chars) := by
  unfold splitSign
  split
  · exact absurd h.head (not_isDigit_of_digit? rfl)
  · exact absurd h.head (not_isDigit_of_digit? rfl)
  · rfl

theorem isNumeral_iff : IsNumeral chars value ↔ ∃ n, IsMagnitude (splitSign chars).2 n ∧
    value = if (splitSign chars).1 then -(n : Int) else n := by
  constructor
  · intro numeral
    cases numeral with
    | @plain _ n magnitude =>
      rw [magnitude.unsigned]
      exact ⟨n, magnitude, rfl⟩
    | @plus _ n magnitude => exact ⟨n, magnitude, rfl⟩
    | @minus _ n magnitude => exact ⟨n, magnitude, rfl⟩
  · rintro ⟨n, magnitude, rfl⟩
    revert magnitude
    unfold splitSign
    split
    · exact .minus
    · exact .plus
    · exact .plain

theorem IsNumeral.unique {other : Int} (h : IsNumeral chars value)
    (h' : IsNumeral chars other) : value = other := by
  obtain ⟨n, magnitude, rfl⟩ := isNumeral_iff.mp h
  obtain ⟨n', magnitude', rfl⟩ := isNumeral_iff.mp h'
  rw [← readMagnitude?_eq_some_iff] at magnitude magnitude'
  cases magnitude.symm.trans magnitude'
  rfl

/-- An integer is read from the numerals of words, and from nothing else. -/
theorem readInteger?_eq_some_iff {text : String} :
    readInteger? text = some value ↔ IsNumeral text.toList value ∧ IsWord value := by
  simp only [readInteger?, Option.bind_eq_bind, Option.bind_eq_some_iff,
    Option.ite_none_right_eq_some, Option.some.injEq, readMagnitude?_eq_some_iff, isNumeral_iff]
  constructor
  · rintro ⟨n, magnitude, word, rfl⟩
    exact ⟨⟨n, magnitude, rfl⟩, word⟩
  · rintro ⟨⟨n, magnitude, rfl⟩, word⟩
    exact ⟨n, magnitude, word, rfl⟩

end Numerals
end FormLowering
