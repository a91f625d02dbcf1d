import Mathlib
import FormLowering.Number.Integer

/-!
The values of an integer width, and what the check of an integer against a width says of it.
-/

namespace FormLowering

/-- The value is an integer of the width, in two's complement where it is signed. -/
def InRange (value : Int) (bits : Nat) (signed : Bool) : Prop :=
  if signed then -2 ^ (bits - 1) ≤ value ∧ value < 2 ^ (bits - 1) else 0 ≤ value ∧ value < 2 ^ bits

instance (value : Int) (bits : Nat) : (signed : Bool) → Decidable (InRange value bits signed)
  | true => inferInstanceAs (Decidable (_ ∧ _))
  | false => inferInstanceAs (Decidable (_ ∧ _))

variable {value : Int} {bits wider : Nat} {signed : Bool}

theorem inRange_signed :
    InRange value bits true ↔ -2 ^ (bits - 1) ≤ value ∧ value < 2 ^ (bits - 1) := .rfl

theorem inRange_unsigned : InRange value bits false ↔ 0 ≤ value ∧ value < 2 ^ bits := .rfl

theorem InRange.mono (h : InRange value bits signed) (le : bits ≤ wider) :
    InRange value wider signed := by
  cases signed with
  | true =>
    obtain ⟨above, below⟩ := inRange_signed.mp h
    have grows : (2 : Int) ^ (bits - 1) ≤ 2 ^ (wider - 1) :=
      pow_le_pow_right₀ (by decide) (Nat.sub_le_sub_right le 1)
    exact ⟨(neg_le_neg grows).trans above, below.trans_le grows⟩
  | false =>
    obtain ⟨above, below⟩ := inRange_unsigned.mp h
    exact ⟨above, below.trans_le (pow_le_pow_right₀ (by decide) le)⟩

/-- Wrapping a natural into words never makes it larger. -/
theorem bmod_le_of_nonneg (nonneg : 0 ≤ value) (modulus : Nat) : value.bmod modulus ≤ value := by
  have reduced : value % modulus ≤ value := by
    obtain ⟨n, rfl⟩ := Int.eq_ofNat_of_zero_le nonneg
    exact_mod_cast Nat.mod_le n modulus
  rw [Int.bmod_def]
  split
  · exact reduced
  · omega

theorem IsWord.inRange (word : IsWord value) (nonneg : signed = false → 0 ≤ value) :
    InRange value 128 signed := by
  cases signed with
  | true => exact word
  | false => exact ⟨nonneg rfl, word.2.trans (by decide)⟩

/-- A word that passes the check against a width is an integer of that width. -/
theorem inRange_of_fits (word : IsWord value) (h : fits value bits signed = true) :
    InRange value bits signed := by
  unfold fits at h
  split at h
  · rename_i wide
    refine (word.inRange fun unsigned => ?_).mono wide
    simpa [unsigned] using h
  · cases signed with
    | true => exact inRange_signed.mpr (by simpa using h)
    | false =>
      simp only [Bool.false_eq_true, if_false, Bool.and_eq_true, decide_eq_true_eq] at h
      have positive : (0 : Int) ≤ Int.pow 2 bits := pow_nonneg (by decide) bits
      exact ⟨h.1, h.2.trans_le (bmod_le_of_nonneg positive _)⟩

/-- Below the sign of words a power of two is no larger as a word. -/
theorem bmod_pow_two (narrow : bits < 127) :
    (Int.pow 2 bits).bmod (Nat.pow 2 128) = Int.pow 2 bits := by
  have positive : (0 : Int) ≤ Int.pow 2 bits := pow_nonneg (by decide) bits
  have below : Int.pow 2 bits ≤ Int.pow 2 126 :=
    pow_le_pow_right₀ (a := (2 : Int)) (by decide) (Nat.le_of_lt_succ narrow)
  have half : Int.pow 2 126 * 2 < (Nat.pow 2 128 : Nat) := by decide
  apply Int.bmod_eq_of_le_mul_two <;> omega

/-- An integer of a width passes the check, but for the unsigned width whose bound is no word. -/
theorem fits_of_inRange (range : InRange value bits signed) (other : signed = false → bits ≠ 127) :
    fits value bits signed = true := by
  unfold fits
  split
  · cases signed with
    | true => rfl
    | false => simpa using (inRange_unsigned.mp range).1
  · rename_i narrow
    cases signed with
    | true => simpa using inRange_signed.mp range
    | false =>
      obtain ⟨nonneg, below⟩ := inRange_unsigned.mp range
      have small : bits < 127 := by
        have := other rfl
        omega
      rw [if_neg Bool.false_ne_true, bmod_pow_two small, Bool.and_eq_true, decide_eq_true_eq,
        decide_eq_true_eq]
      exact ⟨nonneg, below⟩

/-- The numbers that the check of a width below 128 bits computes on its way. With a sign they are
the first power beyond the range, the greatest integer, its negation and the least integer; without
one there is only the power. -/
def widthBounds (bits : Nat) (signed : Bool) : List Int :=
  if signed then [2 ^ (bits - 1), 2 ^ (bits - 1) - 1, -(2 ^ (bits - 1) - 1), -2 ^ (bits - 1)]
  else [2 ^ bits]

/-- Powers of two below the sign of words are words, and so is what lies next to them. -/
theorem isWord_of_le_pow (narrow : bits < 127) (above : -2 ^ bits ≤ value)
    (below : value ≤ 2 ^ bits) : IsWord value := by
  have bound : (2 : Int) ^ bits ≤ 2 ^ 126 :=
    pow_le_pow_right₀ (by decide) (Nat.le_of_lt_succ narrow)
  have small : (2 : Int) ^ 126 < Int.pow 2 127 := by decide
  refine ⟨?_, ?_⟩
  · omega
  · omega

theorem isWord_of_mem_widthBounds (narrow : bits < 128) (other : signed = false → bits ≠ 127) :
    ∀ bound ∈ widthBounds bits signed, IsWord bound := by
  intro bound mem
  cases signed with
  | true =>
    have positive : (0 : Int) < 2 ^ (bits - 1) := pow_pos (by decide) _
    have short : bits - 1 < 127 := by omega
    simp only [widthBounds, if_true, List.mem_cons, List.not_mem_nil, or_false] at mem
    apply isWord_of_le_pow short
    · omega
    · omega
  | false =>
    have short : bits < 127 := by
      have := other rfl
      omega
    have positive : (0 : Int) < 2 ^ bits := pow_pos (by decide) _
    cases List.mem_singleton.mp mem
    apply isWord_of_le_pow short
    · omega
    · exact le_rfl

/-- The check of a width says exactly which words are integers of the width, and all that it
computes on its way are words. The unsigned width of 127 bits is the exception: its bound is no
word and wraps below zero, so nothing passes. -/
theorem width_check_exact (word : IsWord value) :
    ((signed = false → bits ≠ 127) →
      (fits value bits signed = true ↔ InRange value bits signed) ∧
        (bits < 128 → ∀ bound ∈ widthBounds bits signed, IsWord bound)) ∧
    (signed = false → bits = 127 → fits value bits signed = false) := by
  refine ⟨fun other => ⟨⟨inRange_of_fits word, fun range => fits_of_inRange range other⟩,
    fun narrow => isWord_of_mem_widthBounds narrow other⟩, ?_⟩
  rintro rfl rfl
  have wrapped : (Int.pow 2 127).bmod (Nat.pow 2 128) = -2 ^ 127 := by decide
  rw [fits, if_neg (by decide), if_neg Bool.false_ne_true, wrapped, Bool.and_eq_false_iff,
    decide_eq_false_iff_not, decide_eq_false_iff_not]
  omega

/-- Next to the exception the check is exact up to the last integer, and at the exception it refuses
zero. -/
theorem neighbouring_widths_checked :
    IsWord (2 ^ 126 - 1) ∧ IsWord (2 ^ 126) ∧ IsWord (-2 ^ 126) ∧ IsWord 0 ∧
      fits (2 ^ 126 - 1) 126 false = true ∧ fits (2 ^ 126) 126 false = false ∧
      fits (-2 ^ 126) 127 true = true ∧ fits 0 127 false = false := by
  have last : IsWord (2 ^ 126 - 1) := by decide
  have next : IsWord (2 ^ 126) := by decide
  have least : IsWord (-2 ^ 126) := by decide
  have zero : IsWord 0 := by decide
  have other : false = false → 126 ≠ 127 := by decide
  have within : fits (2 ^ 126 - 1) 126 false = true ↔ InRange (2 ^ 126 - 1) 126 false :=
    ((width_check_exact last).1 other).1
  have beyond : fits (2 ^ 126) 126 false = true ↔ InRange (2 ^ 126) 126 false :=
    ((width_check_exact next).1 other).1
  have isSigned : true = false → 127 ≠ 127 := nofun
  have signed : fits (-2 ^ 126) 127 true = true ↔ InRange (-2 ^ 126) 127 true :=
    ((width_check_exact least).1 isSigned).1
  refine ⟨last, next, least, zero, within.mpr (by decide), ?_, signed.mpr (by decide),
    (width_check_exact zero).2 rfl rfl⟩
  rw [← Bool.not_eq_true, beyond]
  decide

/-- An unsigned width of 127 bits has the integer five, and the check refuses it. -/
theorem five_refused : ¬∀ (value : Int) (bits : Nat) (signed : Bool), 1 ≤ bits → IsWord value →
    (fits value bits signed = true ↔ InRange value bits signed) := by
  intro claim
  have passes := (claim 5 127 false (by decide) (by decide)).mpr (by decide)
  revert passes
  decide

/-- An integer that is read is a word. -/
theorem isWord_of_readInteger? {text : String} (h : readInteger? text = some value) :
    IsWord value := by
  simp only [readInteger?, Option.bind_eq_bind, Option.bind_eq_some_iff] at h
  obtain ⟨magnitude, -, accepted⟩ := h
  obtain ⟨word, same⟩ := Option.ite_none_right_eq_some.mp accepted
  exact Option.some.inj same ▸ word

end FormLowering
