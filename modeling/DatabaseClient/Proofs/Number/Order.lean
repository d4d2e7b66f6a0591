import DatabaseClient.Proofs.Number.Rounding

set_option autoImplicit false

namespace DatabaseClient.Number

theorem roundQuotient_mono {a b c d : Nat} (first : 0 < b) (second : 0 < d)
    (order : (a / b : ℚ) ≤ c / d) : roundQuotient a b ≤ roundQuotient c d := by
  by_contra! exceeded
  refine Nat.lt_irrefl (roundQuotient c d) ((lt_roundQuotient_iff second).mpr ?_)
  rcases (lt_roundQuotient_iff first).mp exceeded with above | ⟨tie, odd⟩
  next => exact .inl (above.trans_le order)
  next =>
    rcases (tie.le.trans order).lt_or_eq with above | same
    next => exact .inl above
    next => exact .inr ⟨same, odd⟩

namespace Binary64

theorem scaled_mono {x y : Binary64} (order : x.value ≤ y.value) (scale : Nat) :
    x.scaled scale ≤ y.scaled scale := by
  apply roundQuotient_mono (shifted_pos Nat.one_pos _) (shifted_pos Nat.one_pos _)
  rw [scaled_quotient, scaled_quotient]
  gcongr

section Quotients

variable {a b c d : Nat}

theorem floorLog_mono (numerator : 0 < a) (denominator : 0 < b) (dividend : 0 < c) (divisor : 0 < d)
    (order : (a / b : ℚ) ≤ c / d) : floorLog a b ≤ floorLog c d :=
  le_floorLog dividend divisor ((floorLog_bounds numerator denominator).1.trans order)

theorem value_rounded_mono (numerator : 0 < a) (denominator : 0 < b) (dividend : 0 < c)
    (divisor : 0 < d)
    (order : (a / b : ℚ) ≤ c / d) : (rounded a b).value ≤ (rounded c d).value := by
  have logs : floorLog a b ≤ floorLog c d :=
    floorLog_mono numerator denominator dividend divisor order
  rcases eq_or_ne (lastBit a b) (lastBit c d) with same | apart
  next =>
    have significand : (rounded a b).significand ≤ (rounded c d).significand := by
      apply roundQuotient_mono (shifted_pos denominator _) (shifted_pos divisor _)
      rw [shifted_quotient, shifted_quotient, same]
      gcongr
    have exponent : (rounded a b).exponent = (rounded c d).exponent := same
    rw [value, value, exponent]
    gcongr
  next =>
    have binades : floorLog a b + 1 ≤ floorLog c d ∧ -1074 ≤ floorLog c d := by
      simp only [lastBit] at apart
      omega
    obtain ⟨-, high⟩ := floorLog_bounds numerator denominator
    obtain ⟨low, -⟩ := floorLog_bounds dividend divisor
    have below : (a / b : ℚ) ≤ 2 ^ floorLog c d :=
      high.le.trans (zpow_le_zpow_right₀ one_le_two binades.1)
    exact (value_rounded_le numerator denominator binades.2 below).trans
      (le_value_rounded dividend divisor binades.2 low)

theorem significand_rounded_eq_zero_iff (numerator : 0 < a) (denominator : 0 < b) :
    (rounded a b).significand = 0 ↔ (a / b : ℚ) ≤ 2 ^ (-1075 : ℤ) := by
  have half (n : ℤ) : (1 / 2 : ℚ) * 2 ^ n = 2 ^ (n - 1) := by
    rw [zpow_sub_one₀ two_ne_zero]
    ring
  have zero : (rounded a b).significand = 0 ↔ (a / b : ℚ) ≤ 2 ^ (lastBit a b - 1) := by
    have crossed : 0 < (rounded a b).significand ↔ _ :=
      lt_roundQuotient_iff (shifted_pos denominator (lastBit a b).toNat)
    rw [shifted_quotient] at crossed
    rw [← half, ← div_le_iff₀ (by positivity), ← not_lt, ← Nat.le_zero, ← not_lt]
    exact not_congr (crossed.trans (by simp))
  obtain ⟨low, -⟩ := floorLog_bounds numerator denominator
  rw [zero]
  rcases eq_or_ne (lastBit a b) (-1074) with least | normal
  next => rw [least]; norm_num
  next =>
    -- A normal number is greater than half of any last bit.
    have large (n : ℤ) (under : n < floorLog a b) : ¬ (a / b : ℚ) ≤ 2 ^ n :=
      not_le.mpr ((zpow_lt_zpow_right₀ one_lt_two under).trans_le low)
    simp only [lastBit] at normal ⊢
    exact iff_of_false (large _ (by omega)) (large _ (by omega))

end Quotients

section Decimals

/-- Half of a last bit beyond the greatest double. What reaches it is rounded to no double. -/
def overflowBound : ℚ := 2 ^ (1024 : ℤ) - 2 ^ (970 : ℤ)

theorem overflowBound_pos : 0 < overflowBound :=
  zero_lt_one.trans (one_lt_middle (n := 1023) (by norm_num))

variable {m n : Nat} {e f : Int} {x y : Binary64}

theorem significand_ofDecimal_eq_zero_iff (read : ofDecimal? m e = some x) :
    x.significand = 0 ↔ (m : ℚ) * 10 ^ e ≤ 2 ^ (-1075 : ℤ) := by
  rcases ofDecimal_cases m e with
    ⟨small, tiny⟩ | ⟨-, none⟩ | ⟨num, den, numerator, denominator, quotient, nearest⟩
  next =>
    obtain rfl := Option.some.inj (tiny.symm.trans read)
    exact iff_of_true rfl small
  next => simp [none] at read
  next =>
    rw [eq_rounded numerator (nearest.symm.trans read), ← quotient]
    exact significand_rounded_eq_zero_iff numerator denominator

theorem value_ofDecimal_mono (first : ofDecimal? m e = some x) (second : ofDecimal? n f = some y)
    (order : (m : ℚ) * 10 ^ e ≤ n * 10 ^ f) : x.value ≤ y.value := by
  by_cases zero : x.significand = 0
  next => exact (value_eq_zero zero).trans_le y.value_nonneg
  next =>
    rw [significand_ofDecimal_eq_zero_iff first] at zero
    rcases ofDecimal_cases m e with
      ⟨small, -⟩ | ⟨-, none⟩ | ⟨a, b, numerator, denominator, quotient, nearest⟩
    next => exact absurd small zero
    next => simp [none] at first
    rcases ofDecimal_cases n f with
      ⟨small, -⟩ | ⟨-, none⟩ | ⟨c, d, dividend, divisor, other, also⟩
    next => exact absurd (order.trans small) zero
    next => simp [none] at second
    rw [eq_rounded numerator (nearest.symm.trans first),
      eq_rounded dividend (also.symm.trans second)]
    exact value_rounded_mono numerator denominator dividend divisor (by rwa [quotient, other])

end Decimals

end Binary64

end DatabaseClient.Number
