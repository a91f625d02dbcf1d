import FormLowering.Number.Decimal
import FormLowering.Proofs.Number.Encoding

/-!
The double of a decimal. It is the one that the number rounds to, also where the power of ten is not
worked out: such a number is below half of the least double, or not below the bound of doubles.
-/

namespace FormLowering

namespace FloatFormat

variable {format : FloatFormat} {exact : ℚ} {n power : ℕ}

theorem nearest_zero (nonneg : 0 ≤ exact) (small : exact < 1 / 2) : format.Nearest exact 0 := by
  have count : format.IsCount 0 :=
    ⟨0, format.least, Nat.two_pow_pos _, le_rfl, (Nat.zero_mul _).symm⟩
  have nearer : ∀ m : ℕ, m ≠ 0 → |exact - (0 : ℕ)| < |exact - m| := by
    intro m positive
    have one_le : (1 : ℚ) ≤ m := by exact_mod_cast Nat.pos_of_ne_zero positive
    calc |exact - (0 : ℕ)| = exact := by rw [Nat.cast_zero, sub_zero, abs_of_nonneg nonneg]
      _ < m - exact := by linarith
      _ ≤ |exact - m| := by
        rw [abs_sub_comm]
        exact le_abs_self _
  refine ⟨count, fun m _ => ?_, fun m _ apart tie => ?_⟩
  · rcases eq_or_ne m 0 with rfl | positive
    · exact le_rfl
    · exact (nearer m positive).le
  · exact absurd tie (nearer m apart.symm).ne

/-- A power of two that is not above the rational is not above what it rounds to. -/
theorem Nearest.two_pow_le (nearest : format.Nearest exact n) (digits : 0 < format.digits)
    (least : format.least ≤ power) (le : 2 ^ power ≤ exact) : 2 ^ power ≤ n := by
  have count : format.IsCount (2 ^ power) :=
    ⟨1, power, Nat.one_lt_two_pow digits.ne', least, (Nat.one_mul _).symm⟩
  by_contra below
  have below : (n : ℚ) < 2 ^ power := by exact_mod_cast Nat.not_le.mp below
  have near := nearest.nearest _ count
  push_cast at near
  rw [abs_of_nonneg (by linarith), abs_of_nonneg (by linarith)] at near
  linarith

end FloatFormat

namespace Decimal

/-- The length of a natural is given by the powers of ten that it is between. -/
theorem decimalLength_eq {n : ℕ} (positive : n ≠ 0) :
    ∃ k, decimalLength n = k + 1 ∧ 10 ^ k ≤ n ∧ n < 10 ^ (k + 1) := by
  rw [decimalLength, if_neg positive]
  induction n using Nat.strong_induction_on with
  | _ n ih =>
    rw [Nat.toDigits_eq_if (by decide)]
    split
    · rename_i small
      exact ⟨0, rfl, Nat.pos_of_ne_zero positive, small⟩
    · rename_i large
      have smaller : n / 10 < n := by omega
      obtain ⟨k, length, least, most⟩ := ih (n / 10) smaller (by omega)
      refine ⟨k + 1, ?_, ?_, ?_⟩
      · rw [List.length_append, length, List.length_singleton]
      · rw [Nat.pow_succ]
        omega
      · rw [Nat.pow_succ]
        omega

theorem ten_zpow (exponent : ℤ) : (10 : ℚ) ^ exponent =
    (10 ^ exponent.toNat : ℕ) / (10 ^ (-exponent).toNat : ℕ) := by
  obtain ⟨k, rfl | rfl⟩ := exponent.eq_nat_or_neg
  · simp
  · simp

section Ranges

variable {digits length places unit : ℕ} {exponent : ℤ}

/-- A number with too few places is below one half of a unit. -/
theorem scaled_lt_half (most : digits < 10 ^ length) (few : length + exponent ≤ -places)
    (powers : 2 * unit < 10 ^ places) : (digits * 10 ^ exponent * unit : ℚ) < 1 / 2 := by
  have most : (digits : ℚ) ≤ 10 ^ length := by exact_mod_cast most.le
  have powers : (2 * unit : ℚ) < 10 ^ places := by exact_mod_cast powers
  calc (digits * 10 ^ exponent * unit : ℚ)
      ≤ 10 ^ length * 10 ^ exponent * unit := by gcongr
    _ = 10 ^ (length + exponent) * unit := by rw [zpow_add₀ (by norm_num), zpow_natCast]
    _ ≤ 10 ^ (-places : ℤ) * unit := by
      gcongr
      norm_num
    _ = unit / 10 ^ places := by rw [zpow_neg, zpow_natCast, ← div_eq_inv_mul]
    _ < 1 / 2 := by
      rw [div_lt_div_iff₀ (by positivity) two_pos]
      linarith

/-- A number with enough places is not below a bound that their power of ten reaches. -/
theorem two_pow_le_scaled {bits shift : ℕ} (least : 10 ^ length ≤ digits)
    (many : places ≤ length + exponent) (powers : 2 ^ bits ≤ 10 ^ places) :
    (2 ^ (shift + bits) : ℚ) ≤ digits * 10 ^ exponent * (2 ^ shift : ℕ) := by
  have least : (10 ^ length : ℚ) ≤ digits := by exact_mod_cast least
  have powers : (2 ^ bits : ℚ) ≤ 10 ^ places := by exact_mod_cast powers
  calc (2 ^ (shift + bits) : ℚ) = 2 ^ bits * (2 ^ shift : ℕ) := by
        rw [pow_add, mul_comm, Nat.cast_pow, Nat.cast_ofNat]
    _ ≤ 10 ^ (places : ℤ) * (2 ^ shift : ℕ) := by
      rw [zpow_natCast]
      gcongr
    _ ≤ 10 ^ (length + exponent) * (2 ^ shift : ℕ) := by
      gcongr
      norm_num
    _ = 10 ^ length * 10 ^ exponent * (2 ^ shift : ℕ) := by
      rw [zpow_add₀ (by norm_num), zpow_natCast]
    _ ≤ digits * 10 ^ exponent * (2 ^ shift : ℕ) := by gcongr

end Ranges

theorem fraction_eq (digits shift : ℕ) (exponent : ℤ) :
    (((digits * Nat.pow 10 exponent.toNat) <<< shift : ℕ) : ℚ) / (Nat.pow 10 (-exponent).toNat : ℕ) =
      digits * 10 ^ exponent * (2 ^ shift : ℕ) := by
  rw [Nat.shiftLeft_eq, ten_zpow, Nat.pow_eq, Nat.pow_eq, Nat.cast_mul, Nat.cast_mul,
    mul_div_right_comm, mul_div_assoc]

/-- Where the power of ten is worked out, the fraction that is rounded is the number. -/
theorem rounded_fraction (negative : Bool) (digits : ℕ) (exponent : ℤ) :
    Binary64.Rounded .double negative (digits * 10 ^ exponent * (2 ^ 1074 : ℕ))
      (.ofFraction .double negative ((digits * Nat.pow 10 exponent.toNat) <<< 1074)
        (Nat.pow 10 (-exponent).toNat)) := by
  rw [← fraction_eq]
  exact Binary64.rounded_ofFraction .double negative _ (Nat.pow_pos (by decide))

/-- The double of a decimal is what the number rounds to in units of the least double. -/
theorem rounded_toBinary64 (x : Decimal) :
    Binary64.Rounded .double x.negative (x.digits * 10 ^ x.exponent * (2 ^ 1074 : ℕ))
      x.toBinary64 := by
  obtain ⟨negative, digits, exponent⟩ := x
  have zero (small : (digits * 10 ^ exponent * (2 ^ 1074 : ℕ) : ℚ) < 1 / 2) :
      Binary64.Rounded .double negative (digits * 10 ^ exponent * (2 ^ 1074 : ℕ))
        (.ofMeaning (.finite negative 0)) := by
    have nearest := FloatFormat.double.nearest_zero (by positivity) small
    refine ⟨0, nearest, ?_⟩
    rw [if_pos (Nat.two_pow_pos _)]
    exact Binary64.meaning_ofMeaning_finite nearest.count (Nat.two_pow_pos _)
  unfold toBinary64
  dsimp only
  -- zero has no length, so it is not covered by the bounds that the length gives
  rcases eq_or_ne digits 0 with rfl | positive
  · rw [if_pos (.inl rfl)]
    refine zero ?_
    rw [Nat.cast_zero, zero_mul, zero_mul]
    exact one_half_pos
  obtain ⟨k, length, least, most⟩ := decimalLength_eq positive
  rw [length]
  split
  · rename_i small
    exact zero (scaled_lt_half most (small.resolve_left positive) (by decide +kernel))
  · split
    · rename_i large
      obtain ⟨n, nearest, -⟩ := rounded_fraction negative digits exponent
      have beyond : 2 ^ FloatFormat.double.bound ≤ n := by
        refine nearest.two_pow_le (by decide) (Nat.zero_le _) ?_
        have places : ((309 : ℕ) : ℤ) ≤ k + exponent := by omega
        exact two_pow_le_scaled least places (by decide +kernel)
      refine ⟨n, nearest, ?_⟩
      rw [if_neg (Nat.not_lt.mpr beyond)]
      exact Binary64.meaning_ofMeaning_infinite negative
    · exact rounded_fraction ..

end Decimal
end FormLowering
