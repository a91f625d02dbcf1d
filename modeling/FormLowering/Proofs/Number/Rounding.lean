import Mathlib
import FormLowering.Number.Binary64

/-!
Rounding to a floating format. What a rational rounds to is stated without the way it is found: the
nearest number of the format, and of two that are equally near the one whose last place is even.
-/

namespace FormLowering

/-- A rounded quotient is at most one half away, and it is even where it is just that far. -/
theorem roundQuotient_error (numerator : ℕ) {denominator : ℕ} (positive : 0 < denominator) :
    |(numerator / denominator : ℚ) - roundQuotient numerator denominator| ≤ 1 / 2 ∧
      (|(numerator / denominator : ℚ) - roundQuotient numerator denominator| = 1 / 2 →
        2 ∣ roundQuotient numerator denominator) := by
  have scale : (0 : ℚ) < denominator := by exact_mod_cast positive
  have exact : (numerator / denominator : ℚ) =
      (numerator / denominator : ℕ) + (numerator % denominator : ℕ) / denominator := by
    have whole := congrArg (Nat.cast (R := ℚ)) (Nat.div_add_mod numerator denominator)
    push_cast at whole
    rw [← whole, add_div, mul_div_cancel_left₀ _ scale.ne']
  have proper := Nat.mod_lt numerator positive
  rw [exact]
  unfold roundQuotient
  generalize numerator / denominator = quotient
  generalize numerator % denominator = rest at *
  dsimp only
  split
  · rename_i below
    have small : (rest / denominator : ℚ) < 1 / 2 := by
      rw [div_lt_div_iff₀ scale two_pos]
      exact_mod_cast (by omega : rest * 2 < 1 * denominator)
    have nonneg : (0 : ℚ) ≤ rest / denominator := by positivity
    rw [add_sub_cancel_left, abs_of_nonneg nonneg]
    exact ⟨small.le, fun half => absurd half small.ne⟩
  · split
    · rename_i above
      have large : (1 / 2 : ℚ) < rest / denominator := by
        rw [div_lt_div_iff₀ two_pos scale]
        exact_mod_cast (by omega : 1 * denominator < rest * 2)
      have below : (rest / denominator : ℚ) < 1 := by
        rw [div_lt_one scale]
        exact_mod_cast proper
      push_cast
      rw [add_sub_add_left_eq_sub, abs_of_neg (by linarith)]
      exact ⟨by linarith, fun half => by linarith⟩
    · have half : (rest / denominator : ℚ) = 1 / 2 := by
        rw [div_eq_div_iff scale.ne' two_ne_zero]
        exact_mod_cast (by omega : rest * 2 = 1 * denominator)
      rw [half]
      push_cast
      rw [add_sub_add_left_eq_sub]
      refine ⟨?_, fun _ => by omega⟩
      rcases Nat.mod_two_eq_zero_or_one quotient with even | odd
      · norm_num [even]
      · norm_num [odd]

theorem roundQuotient_le (numerator denominator : ℕ) :
    roundQuotient numerator denominator ≤ numerator / denominator + 1 := by
  unfold roundQuotient
  dsimp only
  split
  · exact Nat.le_succ _
  · split
    · exact le_rfl
    · omega

namespace FloatFormat

variable {format : FloatFormat} {exact : ℚ} {n m : ℕ}

/-- The numbers of a format, were there no bound on them. -/
def IsCount (format : FloatFormat) (n : ℕ) : Prop :=
  ∃ significand power, significand < 2 ^ format.digits ∧ format.least ≤ power ∧
    n = significand * 2 ^ power

/-- The number of a format that a rational rounds to. No number of the format is nearer; where one
is as near, the two are neighbours and the even multiple of their distance is taken. -/
structure Nearest (format : FloatFormat) (exact : ℚ) (n : ℕ) : Prop where
  count : format.IsCount n
  nearest : ∀ m, format.IsCount m → |exact - n| ≤ |exact - m|
  even : ∀ m, format.IsCount m → n ≠ m → |exact - n| = |exact - m| → 2 * ((n : ℤ) - m) ∣ n

theorem Nearest.unique (h : format.Nearest exact n) (h' : format.Nearest exact m) : n = m := by
  by_contra apart
  have near : |exact - n| = |exact - m| := le_antisymm (h.nearest m h'.count) (h'.nearest n h.count)
  have even : 2 * ((n : ℤ) - m) ∣ n := h.even m h'.count apart near
  have even' : 2 * ((n : ℤ) - m) ∣ m := by
    rw [← neg_sub, mul_neg, neg_dvd]
    exact h'.even n h.count (Ne.symm apart) near.symm
  obtain ⟨k, twice⟩ := dvd_sub even even'
  have cancelled : ((n : ℤ) - m) * (2 * k - 1) = 0 := by linarith
  rcases mul_eq_zero.mp cancelled with same | odd
  · exact apart (by exact_mod_cast sub_eq_zero.mp same)
  · omega

section Steps

variable {units other step : ℕ}

/-- Two multiples of a step are as far from each other as from anything between them, at most. -/
theorem distance_mul_le (exact : ℚ) (units other step : ℕ) :
    |(units : ℚ) - other| * step ≤
      |exact - (units * step : ℕ)| + |exact - (other * step : ℕ)| := by
  have through := abs_sub_le ((units * step : ℕ) : ℚ) exact (other * step : ℕ)
  rw [abs_sub_comm _ exact] at through
  push_cast at through ⊢
  rwa [← sub_mul, abs_mul, Nat.abs_cast] at through

theorem one_le_distance (apart : units ≠ other) : (1 : ℚ) ≤ |(units : ℚ) - other| := by
  have whole : (1 : ℤ) ≤ |(units : ℤ) - other| := Int.one_le_abs (by omega)
  exact_mod_cast whole

/-- Among the multiples of a step, one that is at most half a step away is nearest. -/
theorem nearest_multiple (error : |exact - (units * step : ℕ)| ≤ step / 2) (other : ℕ) :
    |exact - (units * step : ℕ)| ≤ |exact - (other * step : ℕ)| := by
  rcases eq_or_ne units other with rfl | apart
  · exact le_rfl
  have between := distance_mul_le exact units other step
  have scaled := le_mul_of_one_le_left (Nat.cast_nonneg step) (one_le_distance apart)
  linarith

/-- Where another multiple is as near, the two are one step apart. -/
theorem even_multiple (positive : 0 < step) (error : |exact - (units * step : ℕ)| ≤ step / 2)
    (even : |exact - (units * step : ℕ)| = step / 2 → 2 ∣ units) (apart : units ≠ other)
    (tie : |exact - (units * step : ℕ)| = |exact - (other * step : ℕ)|) :
    2 * (((units * step : ℕ) : ℤ) - (other * step : ℕ)) ∣ (units * step : ℕ) := by
  have scale : (0 : ℚ) < step := by exact_mod_cast positive
  have between := distance_mul_le exact units other step
  have scaled := le_mul_of_one_le_left scale.le (one_le_distance apart)
  have half : |exact - (units * step : ℕ)| = step / 2 := by linarith
  have neighbours : |(units : ℚ) - other| ≤ 1 := le_of_mul_le_mul_right (by linarith) scale
  have neighbours : |(units : ℤ) - other| ≤ 1 := by exact_mod_cast neighbours
  obtain ⟨below, above⟩ := abs_le.mp neighbours
  have twice := even half
  have unit : 2 * ((units : ℤ) - other) ∣ units := by
    rcases (by omega : (units : ℤ) - other = 1 ∨ (units : ℤ) - other = -1) with one | one
    · rw [one]
      exact_mod_cast twice
    · rw [one, mul_neg, mul_one, neg_dvd]
      exact_mod_cast twice
  push_cast
  rw [← sub_mul, ← mul_assoc]
  exact mul_dvd_mul_right unit _

end Steps

section Step

variable {units : ℕ}

theorem lt_two_pow_step (format : FloatFormat) (units : ℕ) :
    units < 2 ^ (format.digits + format.step units) := by
  refine Nat.lt_log2_self.trans_le (Nat.pow_le_pow_right two_pos ?_)
  unfold step
  omega

/-- Where the step is more than the least one, the number has all digits of the format. -/
theorem two_pow_le_of_least_lt (digits : 0 < format.digits)
    (above : format.least < format.step units) :
    2 ^ (format.digits - 1 + format.step units) ≤ units := by
  have power : format.digits - 1 + format.step units = units.log2 := by
    unfold step at *
    omega
  rw [power]
  refine Nat.log2_self_le ?_
  rintro rfl
  unfold step at above
  rw [Nat.log2_zero] at above
  omega

/-- A number of the format is a multiple of the step, or it is below a power of two that the step
divides and that is not above the rational. -/
theorem IsCount.dvd_or_lt (count : format.IsCount m) (digits : 0 < format.digits) (units : ℕ) :
    2 ^ format.step units ∣ m ∨ ∃ k, m < k * 2 ^ format.step units ∧
      k * 2 ^ format.step units ≤ units := by
  obtain ⟨significand, power, small, least, rfl⟩ := count
  rcases Nat.lt_or_ge power (format.step units) with finer | coarser
  -- with a finer step, all digits of the format stay below the first digit of `units`
  · refine .inr ⟨2 ^ (format.digits - 1), ?_, ?_⟩
    · rw [← Nat.pow_add]
      calc significand * 2 ^ power
          < 2 ^ format.digits * 2 ^ power := Nat.mul_lt_mul_of_pos_right small (Nat.two_pow_pos _)
        _ = 2 ^ (format.digits + power) := (Nat.pow_add ..).symm
        _ ≤ 2 ^ (format.digits - 1 + format.step units) := Nat.pow_le_pow_right two_pos (by omega)
    · rw [← Nat.pow_add]
      exact two_pow_le_of_least_lt digits (least.trans_lt finer)
  · exact .inl (dvd_mul_of_dvd_right (Nat.pow_dvd_pow 2 coarser) _)

end Step

theorem isCount_mul {significand power : ℕ} (digits : 0 < format.digits)
    (small : significand ≤ 2 ^ format.digits) (least : format.least ≤ power) :
    format.IsCount (significand * 2 ^ power) := by
  rcases small.lt_or_eq with below | rfl
  · exact ⟨significand, power, below, least, rfl⟩
  · refine ⟨1, format.digits + power, Nat.one_lt_two_pow digits.ne', by omega, ?_⟩
    rw [Nat.pow_add, Nat.one_mul]

/-- Where every number of the format is a multiple of a step or below a multiple of it that is not
above the rational, a multiple at most half a step away is nearest. -/
theorem nearest_of_error {units step : ℕ} (positive : 0 < step)
    (count : format.IsCount (units * step))
    (steps : ∀ m, format.IsCount m → step ∣ m ∨
      ∃ k : ℕ, m < k * step ∧ ((k * step : ℕ) : ℚ) ≤ exact)
    (error : |exact - (units * step : ℕ)| ≤ step / 2)
    (even : |exact - (units * step : ℕ)| = step / 2 → 2 ∣ units) :
    format.Nearest exact (units * step) := by
  have further : ∀ m, format.IsCount m → ¬step ∣ m →
      |exact - (units * step : ℕ)| < |exact - m| := by
    intro m other between
    obtain ⟨k, under, most⟩ := (steps m other).resolve_left between
    have under : (m : ℚ) < (k * step : ℕ) := by exact_mod_cast under
    calc |exact - (units * step : ℕ)|
        ≤ |exact - (k * step : ℕ)| := nearest_multiple error k
      _ = exact - (k * step : ℕ) := abs_of_nonneg (by linarith)
      _ < exact - m := by linarith
      _ ≤ |exact - m| := le_abs_self _
  refine ⟨count, fun m other => ?_, fun m other apart tie => ?_⟩
  · by_cases multiple : step ∣ m
    · obtain ⟨k, rfl⟩ := multiple
      rw [Nat.mul_comm step k]
      exact nearest_multiple error k
    · exact (further m other multiple).le
  · by_cases multiple : step ∣ m
    · obtain ⟨k, rfl⟩ := multiple
      rw [Nat.mul_comm step k] at apart tie ⊢
      exact even_multiple positive error even (fun same => apart (by rw [same])) tie
    · exact absurd tie (further m other multiple).ne

/-- The rounded quotient in whole steps is what the fraction rounds to. -/
theorem nearest_roundQuotient (digits : 0 < format.digits) (numerator : ℕ) {denominator : ℕ}
    (positive : 0 < denominator) :
    let step := format.step (numerator / denominator)
    format.Nearest (numerator / denominator)
      (roundQuotient numerator (denominator <<< step) <<< step) := by
  intro step
  rw [Nat.shiftLeft_eq, Nat.shiftLeft_eq]
  set units := roundQuotient numerator (denominator * 2 ^ step) with hunits
  have small : units ≤ 2 ^ format.digits := by
    have quotient : numerator / (denominator * 2 ^ step) < 2 ^ format.digits := by
      rw [← Nat.div_div_eq_div_mul]
      refine Nat.div_lt_of_lt_mul ?_
      rw [← Nat.pow_add, Nat.add_comm]
      exact format.lt_two_pow_step _
    exact (roundQuotient_le ..).trans quotient
  have scale : (0 : ℚ) < (2 ^ step : ℕ) := by positivity
  have scaled : |(numerator / denominator : ℚ) - (units * 2 ^ step : ℕ)| =
      |(numerator / (denominator * 2 ^ step : ℕ) : ℚ) - units| * (2 ^ step : ℕ) := by
    rw [← abs_of_pos scale, ← abs_mul, sub_mul, Nat.cast_mul, Nat.cast_mul,
      ← div_div, div_mul_cancel₀ _ scale.ne']
  have half : ((2 ^ step : ℕ) : ℚ) / 2 = 1 / 2 * (2 ^ step : ℕ) := by ring
  have rounded := roundQuotient_error numerator (Nat.mul_pos positive (Nat.two_pow_pos step))
  refine nearest_of_error (Nat.two_pow_pos step)
    (isCount_mul digits small (Nat.le_max_left ..)) ?_ ?_ ?_
  · intro m count
    rcases count.dvd_or_lt digits (numerator / denominator) with multiple | ⟨k, under, most⟩
    · exact .inl multiple
    · exact .inr ⟨k, under, (Nat.cast_le.mpr most).trans Nat.cast_div_le⟩
  · rw [scaled, half]
    exact mul_le_mul_of_nonneg_right rounded.1 scale.le
  · intro tie
    rw [scaled, half] at tie
    exact rounded.2 (mul_right_cancel₀ scale.ne' tie)

/-- Rounding to a format gives the nearest number, if it is below the bound. -/
theorem round?_eq (digits : 0 < format.digits) (numerator : ℕ) {denominator : ℕ}
    (positive : 0 < denominator) : ∃ n, format.Nearest (numerator / denominator) n ∧
      format.round? numerator denominator = if n < 2 ^ format.bound then some n else none := by
  refine ⟨_, nearest_roundQuotient digits numerator positive, ?_⟩
  unfold round?
  rw [Nat.one_shiftLeft]

end FloatFormat
end FormLowering
