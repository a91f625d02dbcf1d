import FormLowering.Proofs.Number.Numeral

/-!
Integers as text. Every word is read back from its decimal text and from its hexadecimal text, with
any number of zeros before the digits. A text that is read has its sign in front and a digit at its
end.
-/

namespace FormLowering

section Digits

variable {base n d : Nat} {c : Char} {chars : List Char}

theorem IsDigit.toUpper (h : IsDigit base c d) : IsDigit base c.toUpper d := by
  obtain ⟨small, lower | upper⟩ := h
  · have row : ∀ d < 16, ("0123456789abcdef".toList[d]?).map Char.toUpper =
        "0123456789ABCDEF".toList[d]? := by decide
    have bound : d < 16 := (List.getElem?_eq_some_iff.mp lower).1
    exact ⟨small, .inr (by rw [← row d bound, lower, Option.map_some])⟩
  · have row : ∀ d < 16, ("0123456789ABCDEF".toList[d]?).map Char.toUpper =
        "0123456789ABCDEF".toList[d]? := by decide
    have bound : d < 16 := (List.getElem?_eq_some_iff.mp upper).1
    exact ⟨small, .inr (by rw [← row d bound, upper, Option.map_some])⟩

theorem IsDigit.mono {wider : Nat} (h : IsDigit base c d) (le : base ≤ wider) :
    IsDigit wider c d := ⟨h.1.trans_le le, h.2⟩

namespace IsNatural

theorem replicate_append (positive : 0 < base) (h : IsNatural base chars n) (zeros : Nat) :
    IsNatural base (List.replicate zeros '0' ++ chars) n := by
  induction zeros with
  | zero => exact h
  | succ zeros ih =>
    obtain ⟨-, digits, spelled, value⟩ := ih
    refine ⟨List.cons_ne_nil _ _, 0 :: digits, .cons ⟨positive, .inl rfl⟩ spelled, ?_⟩
    rw [value, List.reverse_cons, Nat.ofDigits_append, Nat.ofDigits_singleton, Nat.mul_zero,
      Nat.add_zero]

theorem toUpper (h : IsNatural base chars n) : IsNatural base (chars.map Char.toUpper) n := by
  obtain ⟨full, digits, spelled, value⟩ := h
  refine ⟨by simpa using full, digits, ?_, value⟩
  exact List.forall₂_map_left_iff.mpr (spelled.imp fun _ _ => IsDigit.toUpper)

end IsNatural

end Digits

section Texts

variable {value : Int} {chars : List Char} {n : Nat}

/-- The sign of an integer as it is written: a minus or nothing. -/
def signChars (value : Int) : List Char := if value < 0 then ['-'] else []

/-- The decimal text of an integer, with zeros before its digits. -/
def decimalText (zeros : Nat) (value : Int) : String :=
  String.ofList (signChars value ++ (List.replicate zeros '0' ++ Nat.toDigits 10 value.natAbs))

/-- The hexadecimal text of an integer, with zeros before its digits. The mark and the letters
among the digits are small or capital. -/
def hexadecimalText (capitalMark capitals : Bool) (zeros : Nat) (value : Int) : String :=
  let mark := if capitalMark then 'X' else 'x'
  let digits := Nat.toDigits 16 value.natAbs
  let digits := if capitals then digits.map Char.toUpper else digits
  String.ofList (signChars value ++ ('0' :: mark :: (List.replicate zeros '0' ++ digits)))

theorem isNumeral_signChars_append (h : IsMagnitude chars value.natAbs) :
    IsNumeral (signChars value ++ chars) value := by
  unfold signChars
  split
  · rename_i negative
    have numeral : IsNumeral ('-' :: chars) (-(value.natAbs : Int)) := .minus h
    rwa [Int.ofNat_natAbs_of_nonpos negative.le, Int.neg_neg] at numeral
  · rename_i nonneg
    have numeral : IsNumeral chars (value.natAbs : Int) := .plain h
    rwa [Int.natAbs_of_nonneg (Int.not_lt.mp nonneg)] at numeral

theorem isNumeral_decimalText (zeros : Nat) (value : Int) :
    IsNumeral (decimalText zeros value).toList value := by
  rw [decimalText, String.toList_ofList]
  exact isNumeral_signChars_append (.decimal
    ((isNatural_toDigits (by decide) (by decide) _).replicate_append (by decide) zeros))

theorem isNumeral_hexadecimalText (capitalMark capitals : Bool) (zeros : Nat) (value : Int) :
    IsNumeral (hexadecimalText capitalMark capitals zeros value).toList value := by
  have natural : IsNatural 16 (Nat.toDigits 16 value.natAbs) value.natAbs :=
    isNatural_toDigits (by decide) (by decide) _
  rw [hexadecimalText, String.toList_ofList]
  refine isNumeral_signChars_append (.hexadecimal ?_ (.replicate_append (by decide) ?_ zeros))
  · cases capitalMark with
    | false => exact .inl rfl
    | true => exact .inr rfl
  · cases capitals with
    | false => exact natural
    | true => exact natural.toUpper

/-- An integer prints as its decimal text. -/
theorem toString_eq_decimalText (value : Int) : toString value = decimalText 0 value := by
  rw [← String.toList_inj, Int.toString_eq_repr, Int.repr_eq_if, decimalText,
    String.toList_ofList, signChars, List.replicate_zero, List.nil_append]
  split
  · rename_i nonneg
    rw [if_neg (Int.not_lt.mpr nonneg), Nat.toList_repr, List.nil_append]
    congr 1
    omega
  · rename_i negative
    rw [if_pos (Int.not_le.mp negative), String.toList_append, Nat.toList_repr]
    congr 2
    omega

theorem isWord_iff : IsWord value ↔ -2 ^ 127 ≤ value ∧ value ≤ 2 ^ 127 - 1 :=
  and_congr_right fun _ => Int.le_sub_one_iff.symm

/-- The characters are digits and signs and marks only, the sign is in front of all others, and the
last one is a digit. -/
structure NumeralShaped (chars : List Char) : Prop where
  known : ∀ c ∈ chars, (∃ d, IsDigit 16 c d) ∨ c ∈ ['x', 'X', '+', '-']
  unsigned : ∀ c ∈ chars.tail, c ≠ '+' ∧ c ≠ '-'
  last : ∃ c ∈ chars.getLast?, ∃ d, IsDigit 16 c d

theorem IsNatural.last {base : Nat} (h : IsNatural base chars n) (base_le : base ≤ 16) :
    ∃ c ∈ chars.getLast?, ∃ d, IsDigit 16 c d := by
  obtain ⟨d, digit⟩ := h.isDigit _ (List.getLast_mem h.1)
  exact ⟨_, List.getLast?_eq_some_getLast h.1, d, digit.mono base_le⟩

namespace IsMagnitude

theorem known (h : IsMagnitude chars n) :
    ∀ c ∈ chars, (∃ d, IsDigit 16 c d) ∨ c ∈ ['x', 'X'] := by
  cases h with
  | decimal natural =>
    intro c mem
    obtain ⟨d, digit⟩ := natural.isDigit c mem
    exact .inl ⟨d, digit.mono (by decide)⟩
  | hexadecimal mark natural =>
    refine List.forall_mem_cons.mpr ⟨.inl ⟨0, by decide, .inl rfl⟩, ?_⟩
    refine List.forall_mem_cons.mpr ⟨.inr (by simpa using mark), ?_⟩
    exact fun c mem => .inl (natural.isDigit c mem)

/-- No sign is a digit or the mark of a base. -/
theorem not_sign (h : IsMagnitude chars n) : ∀ c ∈ chars, c ≠ '+' ∧ c ≠ '-' := by
  intro c mem
  rcases h.known c mem with digit | mark
  · refine ⟨?_, ?_⟩
    · rintro rfl
      exact absurd digit (not_isDigit_of_digit? rfl)
    · rintro rfl
      exact absurd digit (not_isDigit_of_digit? rfl)
  · have signs : ∀ c ∈ ['x', 'X'], c ≠ '+' ∧ c ≠ '-' := by simp
    exact signs c mark

theorem last (h : IsMagnitude chars n) : ∃ c ∈ chars.getLast?, ∃ d, IsDigit 16 c d := by
  cases h with
  | decimal natural => exact natural.last (by decide)
  | hexadecimal mark natural =>
    rw [List.getLast?_cons_cons, List.getLast?_cons_of_ne_nil natural.1]
    exact natural.last le_rfl

theorem shaped (h : IsMagnitude chars n) : NumeralShaped chars where
  known c mem := (h.known c mem).imp_right fun mark => List.mem_append_left ['+', '-'] mark
  unsigned c mem := h.not_sign c (List.mem_of_mem_tail mem)
  last := h.last

theorem shaped_cons {sign : Char} (h : IsMagnitude chars n) (isSign : sign ∈ ['+', '-']) :
    NumeralShaped (sign :: chars) where
  known := List.forall_mem_cons.mpr
    ⟨.inr (List.mem_append_right ['x', 'X'] isSign), h.shaped.known⟩
  unsigned := h.not_sign
  last := by
    obtain ⟨c, ends, digit⟩ := h.last
    have full : chars ≠ [] := List.ne_nil_of_mem (List.mem_of_getLast? ends)
    exact ⟨c, by rwa [List.getLast?_cons_of_ne_nil full], digit⟩

end IsMagnitude

theorem IsNumeral.shaped (h : IsNumeral chars value) : NumeralShaped chars := by
  cases h with
  | plain magnitude => exact magnitude.shaped
  | plus magnitude => exact magnitude.shaped_cons (by decide)
  | minus magnitude => exact magnitude.shaped_cons (by decide)

end Texts

/-- An integer is read from the numerals of words with their value, and from nothing else. So every
word is read back from its decimal text and from its hexadecimal text, whatever zeros stand before
its digits, and a text is refused that has a second sign, another character, or no digit at its
end. -/
theorem integer_numerals_exact :
    (∀ text value, readInteger? text = some value ↔
      IsNumeral text.toList value ∧ -2 ^ 127 ≤ value ∧ value ≤ 2 ^ 127 - 1) ∧
    (∀ value : Int, -2 ^ 127 ≤ value → value ≤ 2 ^ 127 - 1 →
      readInteger? (toString value) = some value ∧
      ∀ zeros, readInteger? (decimalText zeros value) = some value ∧
        ∀ capitalMark capitals,
          readInteger? (hexadecimalText capitalMark capitals zeros value) = some value) ∧
    ∀ text, ¬NumeralShaped text.toList → readInteger? text = none := by
  have numerals : ∀ text value, readInteger? text = some value ↔
      IsNumeral text.toList value ∧ -2 ^ 127 ≤ value ∧ value ≤ 2 ^ 127 - 1 := by
    intro text value
    rw [readInteger?_eq_some_iff, isWord_iff]
  refine ⟨numerals, ?_, ?_⟩
  · intro value least most
    have decimal (zeros : Nat) : readInteger? (decimalText zeros value) = some value :=
      (numerals _ value).mpr ⟨isNumeral_decimalText zeros value, least, most⟩
    refine ⟨?_, fun zeros => ⟨decimal zeros, fun capitalMark capitals => ?_⟩⟩
    · rw [toString_eq_decimalText]
      exact decimal 0
    · exact (numerals _ value).mpr
        ⟨isNumeral_hexadecimalText capitalMark capitals zeros value, least, most⟩
  · intro text unshaped
    rw [Option.eq_none_iff_forall_ne_some]
    intro value read
    exact unshaped ((numerals text value).mp read).1.shaped

/-- The least word is read, though its size without the sign is no word. -/
theorem least_word_read : (-2 ^ 127 : Int) ≤ -2 ^ 127 ∧ (-2 ^ 127 : Int) ≤ 2 ^ 127 - 1 ∧
    readInteger? "-0X0080000000000000000000000000000000" = some (-2 ^ 127) ∧
    ¬NumeralShaped "0x".toList ∧ readInteger? "0x" = none := by
  have words : (-2 ^ 127 : Int) ≤ -2 ^ 127 ∧ (-2 ^ 127 : Int) ≤ 2 ^ 127 - 1 := by decide
  have read := ((integer_numerals_exact.2.1 _ words.1 words.2).2 2).2 true false
  have bare : ¬NumeralShaped "0x".toList := by
    intro shaped
    obtain ⟨c, ⟨⟩, digit⟩ := shaped.last
    exact absurd digit (not_isDigit_of_digit? rfl)
  exact ⟨words.1, words.2, read, bare, integer_numerals_exact.2.2 "0x" bare⟩

end FormLowering
