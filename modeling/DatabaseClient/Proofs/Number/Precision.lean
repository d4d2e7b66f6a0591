import DatabaseClient.Proofs.Number.Rounding

set_option autoImplicit false

namespace DatabaseClient.Number

section Quotients

variable {num den k : Nat}

theorem abs_roundQuotient_sub (num : Nat) (positive : 0 < den) :
    |(roundQuotient num den : ℚ) - num / den| ≤ 1 / 2 := by
  have high : ¬ roundQuotient num den < roundQuotient num den := Nat.lt_irrefl _
  rw [lt_roundQuotient_iff positive, not_or, not_lt] at high
  have low : (roundQuotient num den : ℚ) - 1 / 2 ≤ num / den := by
    cases rounded : roundQuotient num den with
    | zero =>
      have nonneg : (0 : ℚ) ≤ num / den := by positivity
      norm_num
      linarith
    | succ k =>
      have passed : k < roundQuotient num den := by omega
      rw [lt_roundQuotient_iff positive] at passed
      push_cast
      rcases passed with above | ⟨tie, -⟩ <;> linarith
  rw [abs_le]
  constructor <;> linarith

theorem roundQuotient_eq (positive : 0 < den) (near : |(k : ℚ) - num / den| < 1 / 2) :
    roundQuotient num den = k := by
  have half := abs_roundQuotient_sub num positive
  have apart : |(roundQuotient num den : ℚ) - k| < 1 := by
    rw [abs_lt] at near ⊢
    rw [abs_le] at half
    constructor <;> linarith
  have whole : |(roundQuotient num den : ℤ) - k| < 1 := by exact_mod_cast apart
  have same := Int.abs_lt_one_iff.mp whole
  omega

end Quotients

namespace Binary64

variable {num den : Nat}

theorem abs_value_rounded_sub (denominator : 0 < den) :
    |(rounded num den).value - num / den| ≤ 2 ^ lastBit num den / 2 := by
  have unit : (0 : ℚ) < 2 ^ lastBit num den := by positivity
  have half := abs_roundQuotient_sub (num <<< (-lastBit num den).toNat)
    (shifted_pos denominator (lastBit num den).toNat)
  rw [shifted_quotient] at half
  have scaled : (rounded num den).value - num / den =
      ((rounded num den).significand - num / den / 2 ^ lastBit num den) * 2 ^ lastBit num den := by
    rw [sub_mul, div_mul_cancel₀ _ unit.ne']
    rfl
  rw [scaled, abs_mul, abs_of_pos unit]
  calc _ ≤ 1 / 2 * (2 : ℚ) ^ lastBit num den := by gcongr; exact half
    _ = _ := by ring

theorem lastBit_le {n : Int} (numerator : 0 < num) (denominator : 0 < den) (normal : -1021 ≤ n)
    (below : (num / den : ℚ) < 2 ^ n) : lastBit num den ≤ n - 53 := by
  obtain ⟨low, -⟩ := floorLog_bounds numerator denominator
  have order : floorLog num den < n :=
    (zpow_lt_zpow_iff_right₀ one_lt_two).mp (low.trans_lt below)
  simp only [lastBit]
  omega

theorem ofDecimal_near {digits : Nat} {exponent n : Int} (normal : -1021 ≤ n) (finite : n ≤ 1023)
    (below : (digits : ℚ) * 10 ^ exponent < 2 ^ n) :
    ∃ x, ofDecimal? digits exponent = some x ∧
      |x.value - digits * 10 ^ exponent| ≤ 2 ^ (n - 54) := by
  have fits : ofDecimal? digits exponent ≠ none := by
    have order : (2 : ℚ) ^ n ≤ 2 ^ (1023 : ℤ) := zpow_le_zpow_right₀ one_le_two (by omega)
    have half : (2 : ℚ) ^ (970 : ℤ) ≤ 2 ^ (1023 : ℤ) := zpow_le_zpow_right₀ one_le_two (by norm_num)
    have double : (2 : ℚ) ^ (1024 : ℤ) = 2 ^ (1023 : ℤ) + 2 ^ (1023 : ℤ) := two_zpow_add_one 1023
    rw [Ne, ofDecimal_eq_none_iff, not_le, double, add_sub_assoc]
    exact (below.trans_le order).trans_le (le_add_of_nonneg_right (sub_nonneg.mpr half))
  obtain ⟨x, read⟩ := Option.ne_none_iff_exists'.mp fits
  refine ⟨x, read, ?_⟩
  rcases ofDecimal_cases digits exponent with
    ⟨small, tiny⟩ | ⟨-, huge⟩ | ⟨num, den, numerator, denominator, quotient, nearest⟩
  next =>
    obtain rfl := Option.some.inj (tiny.symm.trans read)
    have nonneg : (0 : ℚ) ≤ digits * 10 ^ exponent := by positivity
    have least : (2 : ℚ) ^ (-1075 : ℤ) ≤ 2 ^ (n - 54) :=
      zpow_le_zpow_right₀ one_le_two (by omega)
    rw [value_eq_zero rfl, zero_sub, abs_neg, abs_of_nonneg nonneg]
    exact small.trans least
  next => exact absurd huge fits
  next =>
    have bit : lastBit num den ≤ n - 53 :=
      lastBit_le numerator denominator normal (by rwa [quotient])
    rw [eq_rounded numerator (nearest.symm.trans read), ← quotient]
    calc |(rounded num den).value - num / den|
      _ ≤ 2 ^ lastBit num den / 2 := abs_value_rounded_sub denominator
      _ ≤ 2 ^ (n - 53) / 2 := by
        gcongr
        exact one_le_two
      _ = 2 ^ (n - 54) := by
        rw [show n - 53 = n - 54 + 1 by omega, zpow_add_one₀ two_ne_zero]
        ring

theorem scaled_eq {x : Binary64} {scale k : Nat} (near : |k - x.value * scale| < 1 / 2) :
    x.scaled scale = k := by
  apply roundQuotient_eq (shifted_pos Nat.one_pos _)
  rwa [scaled_quotient]

theorem scaled_ofDecimal {k places : Nat} {n : Int} (normal : -1021 ≤ n)
    (below : (k : ℚ) < 2 ^ n * 10 ^ places) (coarse : (10 : ℚ) ^ places < 2 ^ (53 - n)) :
    ∃ x, ofDecimal? k (-places) = some x ∧ x.scaled (10 ^ places) = k := by
  have one : (1 : ℚ) ≤ 10 ^ places := one_le_pow₀ (by norm_num)
  have bits : 0 < 53 - n := (one_lt_zpow_iff_right₀ one_lt_two).mp (one.trans_lt coarse)
  have power : (0 : ℚ) < 10 ^ places := by positivity
  have shifted : (k : ℚ) * 10 ^ (-places : ℤ) * 10 ^ places = k := by
    rw [zpow_neg, zpow_natCast, inv_mul_cancel_right₀ power.ne']
  have small : (k : ℚ) * 10 ^ (-places : ℤ) < 2 ^ n := by
    rwa [← mul_lt_mul_iff_left₀ power, shifted]
  obtain ⟨x, read, near⟩ := ofDecimal_near normal (by omega) small
  refine ⟨x, read, scaled_eq ?_⟩
  calc |(k : ℚ) - x.value * (10 ^ places : ℕ)|
    _ = |x.value - k * 10 ^ (-places : ℤ)| * 10 ^ places := by
      rw [← abs_of_pos power, ← abs_mul, sub_mul, shifted, abs_sub_comm, Nat.cast_pow]
      rfl
    _ ≤ 2 ^ (n - 54) * 10 ^ places := by gcongr
    _ < 2 ^ (n - 54) * 2 ^ (53 - n) := by gcongr
    _ = 1 / 2 := by
      rw [← zpow_add₀ two_ne_zero, show n - 54 + (53 - n) = -1 by omega]
      norm_num

end Binary64

end DatabaseClient.Number
