import FormLowering.Proofs.Number.Rounding

/-!
The encoding of double-precision numbers. A word is a sign, an exponent and a fraction. Apart from
the words that are no number, words and what they stand for are in one-to-one correspondence.
-/

namespace FormLowering

/-- The numbers of the format are doubles. -/
structure FloatFormat.Narrow (format : FloatFormat) : Prop where
  digits_pos : 0 < format.digits
  digits : format.digits ≤ double.digits
  least : double.least ≤ format.least
  bound : format.bound ≤ double.bound

theorem FloatFormat.Narrow.double : double.Narrow := ⟨by decide, by decide, by decide, by decide⟩

theorem FloatFormat.Narrow.single : single.Narrow := ⟨by decide, by decide, by decide, by decide⟩

theorem FloatFormat.IsCount.mono {format : FloatFormat} {n : ℕ} (h : format.IsCount n)
    (narrow : format.Narrow) : double.IsCount n := by
  obtain ⟨significand, power, small, least, rfl⟩ := h
  exact ⟨significand, power, small.trans_le (Nat.pow_le_pow_right two_pos narrow.digits),
    narrow.least.trans least, rfl⟩

namespace Binary64

variable {negative : Bool} {exponent fraction units : ℕ} {x y : Binary64}

/-! ## Fields -/

/-- The word of a sign, an exponent and a fraction. -/
def fields (negative : Bool) (exponent fraction : ℕ) : ℕ :=
  (if negative then 2 ^ 63 else 0) + (exponent * 2 ^ 52 + fraction)

/-- The count of least doubles that an exponent and a fraction stand for. -/
def countOf (exponent fraction : ℕ) : ℕ :=
  if exponent = 0 then fraction else (2 ^ 52 + fraction) * 2 ^ (exponent - 1)

/-- What a word stands for, by its fields. -/
def Meaning.ofFields (negative : Bool) (exponent fraction : ℕ) : Meaning :=
  if exponent = 2 ^ 11 - 1 then if fraction = 0 then .infinite negative else .nan
  else .finite negative (countOf exponent fraction)

theorem negative_fields (he : exponent < 2 ^ 11) (hf : fraction < 2 ^ 52) :
    decide (2 ^ 63 ≤ fields negative exponent fraction) = negative := by
  unfold fields
  cases negative with
  | false =>
    rw [decide_eq_false_iff_not]
    simp only [Bool.false_eq_true, if_false]
    omega
  | true => exact decide_eq_true (Nat.le_add_right ..)

theorem exponent_fields (he : exponent < 2 ^ 11) (hf : fraction < 2 ^ 52) :
    fields negative exponent fraction / 2 ^ 52 % 2 ^ 11 = exponent := by
  unfold fields
  split <;> omega

theorem fraction_fields (hf : fraction < 2 ^ 52) :
    fields negative exponent fraction % 2 ^ 52 = fraction := by
  unfold fields
  split <;> omega

theorem fields_lt (he : exponent < 2 ^ 11) (hf : fraction < 2 ^ 52) :
    fields negative exponent fraction < 2 ^ 64 := by
  unfold fields
  split <;> omega

theorem meaning_fields (he : exponent < 2 ^ 11) (hf : fraction < 2 ^ 52) :
    meaning ⟨UInt64.ofNat (fields negative exponent fraction)⟩ =
      .ofFields negative exponent fraction := by
  unfold meaning Meaning.ofFields countOf
  rw [UInt64.toNat_ofNat_of_lt' (fields_lt he hf)]
  simp only [Nat.shiftLeft_eq, Nat.shiftRight_eq_div_pow, Nat.one_mul, negative_fields he hf,
    exponent_fields he hf, fraction_fields hf]
  split_ifs <;> rfl

/-- Every word has its fields. -/
theorem exists_fields (x : Binary64) : ∃ negative exponent fraction, exponent < 2 ^ 11 ∧
    fraction < 2 ^ 52 ∧ x = ⟨UInt64.ofNat (fields negative exponent fraction)⟩ := by
  obtain ⟨bits⟩ := x
  have small := bits.toNat_lt
  refine ⟨decide (2 ^ 63 ≤ bits.toNat), bits.toNat / 2 ^ 52 % 2 ^ 11, bits.toNat % 2 ^ 52,
    Nat.mod_lt _ (by decide), Nat.mod_lt _ (by decide), ?_⟩
  have whole : fields (decide (2 ^ 63 ≤ bits.toNat)) (bits.toNat / 2 ^ 52 % 2 ^ 11)
      (bits.toNat % 2 ^ 52) = bits.toNat := by
    unfold fields
    simp only [decide_eq_true_eq]
    split <;> omega
  rw [whole, UInt64.ofNat_toNat]

/-! ## Finite numbers -/

theorem step_of_lt (small : units < 2 ^ 53) : FloatFormat.double.step units = 0 := by
  have log : units.log2 < 53 := by
    rcases eq_or_ne units 0 with rfl | nonzero
    · decide
    · exact (Nat.log2_lt nonzero).mpr small
  change max 0 (units.log2 + 1 - 53) = 0
  omega

theorem step_mul {significand : ℕ} (full : 2 ^ 52 ≤ significand) (small : significand < 2 ^ 53)
    (power : ℕ) : FloatFormat.double.step (significand * 2 ^ power) = power := by
  have log : (significand * 2 ^ power).log2 = 52 + power := by
    refine (Nat.log2_eq_iff (by positivity)).mpr ⟨?_, ?_⟩
    · rw [Nat.pow_add]
      exact Nat.mul_le_mul_right _ full
    · rw [Nat.add_right_comm, Nat.pow_add]
      exact Nat.mul_lt_mul_of_pos_right small (Nat.two_pow_pos _)
  change max 0 ((significand * 2 ^ power).log2 + 1 - 53) = power
  omega

/-- The exponent counts the steps from one on: the first digit of a full significand adds one. -/
theorem magnitude_countOf (hf : fraction < 2 ^ 52) :
    magnitude (countOf exponent fraction) = exponent * 2 ^ 52 + fraction := by
  unfold magnitude countOf
  simp only [Nat.shiftLeft_eq, Nat.shiftRight_eq_div_pow]
  split
  · rename_i zero
    rw [step_of_lt (by omega), zero]
    omega
  · rename_i nonzero
    rw [step_mul (by omega) (by omega), Nat.mul_div_cancel _ (Nat.two_pow_pos _)]
    omega

/-- A double below the bound has an exponent and a fraction. -/
theorem exists_countOf (count : FloatFormat.double.IsCount units)
    (below : units < 2 ^ FloatFormat.double.bound) :
    ∃ exponent fraction, exponent < 2 ^ 11 - 1 ∧ fraction < 2 ^ 52 ∧
      units = countOf exponent fraction := by
  -- a number of the format is a multiple of its own step, as it is not below itself
  have multiple : 2 ^ FloatFormat.double.step units ∣ units := by
    rcases count.dvd_or_lt (by decide) units with multiple | ⟨k, under, most⟩
    · exact multiple
    · exact absurd (under.trans_le most) (lt_irrefl _)
  have digits : units < 2 ^ (53 + FloatFormat.double.step units) :=
    FloatFormat.double.lt_two_pow_step units
  have full (above : 0 < FloatFormat.double.step units) :
      2 ^ (52 + FloatFormat.double.step units) ≤ units :=
    FloatFormat.double.two_pow_le_of_least_lt (by decide) above
  generalize FloatFormat.double.step units = step at *
  obtain ⟨significand, rfl⟩ := multiple
  rw [Nat.pow_add, Nat.mul_comm] at digits
  have small := lt_of_mul_lt_mul_right digits (Nat.zero_le _)
  rcases Nat.lt_or_ge significand (2 ^ 52) with few | all
  · have least : step = 0 := by
      by_contra above
      have least := full (Nat.pos_of_ne_zero above)
      rw [Nat.pow_add, Nat.mul_comm] at least
      exact absurd (Nat.le_of_mul_le_mul_left least (Nat.two_pow_pos _)) (Nat.not_le.mpr few)
    refine ⟨0, significand, by decide, few, ?_⟩
    rw [least, Nat.pow_zero, Nat.one_mul]
    rfl
  · have step_lt : step + 52 < FloatFormat.double.bound := by
      refine (pow_lt_pow_iff_right₀ (by decide : 1 < 2)).mp ?_
      rw [pow_add]
      exact (Nat.mul_le_mul_left _ all).trans_lt below
    change step + 52 < 2098 at step_lt
    refine ⟨step + 1, significand - 2 ^ 52, by omega, by omega, ?_⟩
    rw [countOf, if_neg (Nat.succ_ne_zero _), Nat.add_sub_cancel' all, Nat.add_sub_cancel]
    exact Nat.mul_comm ..

/-- Every double but those of no number is the one that its meaning asks for. -/
theorem ofMeaning_ofFields (hf : fraction < 2 ^ 52)
    (number : Meaning.ofFields negative exponent fraction ≠ .nan) :
    ofMeaning (.ofFields negative exponent fraction) =
      ⟨UInt64.ofNat (fields negative exponent fraction)⟩ := by
  unfold Meaning.ofFields at *
  split
  · rename_i highest
    rw [if_pos highest] at number
    split
    · rename_i zero
      rw [highest, zero]
      cases negative <;> rfl
    · rename_i nonzero
      exact absurd (if_neg nonzero) number
  · simp only [ofMeaning, fields, magnitude_countOf hf, Nat.one_shiftLeft]

theorem ofMeaning_meaning (number : x.meaning ≠ .nan) : ofMeaning x.meaning = x := by
  obtain ⟨negative, exponent, fraction, he, hf, rfl⟩ := exists_fields x
  rw [meaning_fields he hf] at *
  exact ofMeaning_ofFields hf number

/-- What a double stands for decides it, unless it is no number. -/
theorem meaning_injective (same : x.meaning = y.meaning) (number : x.meaning ≠ .nan) : x = y := by
  rw [← ofMeaning_meaning number, same, ofMeaning_meaning (same ▸ number)]

theorem meaning_ofMeaning_infinite (negative : Bool) :
    (ofMeaning (.infinite negative)).meaning = .infinite negative := by
  cases negative <;> decide

theorem meaning_ofMeaning_finite (count : FloatFormat.double.IsCount units)
    (below : units < 2 ^ FloatFormat.double.bound) :
    (ofMeaning (.finite negative units)).meaning = .finite negative units := by
  obtain ⟨exponent, fraction, he, hf, rfl⟩ := exists_countOf count below
  have finite : Meaning.ofFields negative exponent fraction =
      .finite negative (countOf exponent fraction) := if_neg he.ne
  have he := he.trans (by decide : 2 ^ 11 - 1 < 2 ^ 11)
  rw [← finite, ofMeaning_ofFields hf (by rw [finite]; nofun), meaning_fields he hf]

/-! ## Rounding -/

section Rounding

variable {format : FloatFormat} {exact : ℚ}

/-- The double that a rational rounds to in a format. It is infinite where that number is not below
the bound. -/
def Rounded (format : FloatFormat) (negative : Bool) (exact : ℚ) (x : Binary64) : Prop :=
  ∃ n, format.Nearest exact n ∧
    x.meaning = if n < 2 ^ format.bound then .finite negative n else .infinite negative

theorem Rounded.unique (h : Rounded format negative exact x)
    (h' : Rounded format negative exact y) : x = y := by
  obtain ⟨n, nearest, hx⟩ := h
  obtain ⟨m, nearest', hy⟩ := h'
  cases nearest.unique nearest'
  refine meaning_injective (hx.trans hy.symm) ?_
  rw [hx]
  split <;> nofun

/-- Rounding to a format whose numbers are doubles. -/
theorem rounded_ofFraction (narrow : format.Narrow) (negative : Bool) (numerator : ℕ)
    {denominator : ℕ} (positive : 0 < denominator) :
    Rounded format negative (numerator / denominator)
      (ofFraction format negative numerator denominator) := by
  obtain ⟨n, nearest, found⟩ := format.round?_eq narrow.digits_pos numerator positive
  refine ⟨n, nearest, ?_⟩
  unfold ofFraction
  by_cases below : n < 2 ^ format.bound
  · have within : n < 2 ^ FloatFormat.double.bound :=
      below.trans_le (pow_le_pow_right₀ one_le_two narrow.bound)
    rw [found, if_pos below, if_pos below]
    exact meaning_ofMeaning_finite (nearest.count.mono narrow) within
  · rw [found, if_neg below, if_neg below]
    exact meaning_ofMeaning_infinite negative

/-- A finite double is rounded once more to single precision. -/
theorem rounded_toSingle (finite : x.meaning = .finite negative units) :
    Rounded .single negative units x.toSingle := by
  have rounded := rounded_ofFraction .single negative units Nat.one_pos
  rw [Nat.cast_one, div_one] at rounded
  rwa [toSingle, finite]

theorem toSingle_eq_self (other : ∀ negative units, x.meaning ≠ .finite negative units) :
    x.toSingle = x := by
  unfold toSingle
  split
  · rename_i negative units finite
    exact absurd finite (other negative units)
  · rfl

end Rounding

end Binary64
end FormLowering
