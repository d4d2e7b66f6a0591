import Mathlib.Algebra.Order.Field.Power
import Mathlib.Data.Rat.Cast.Order
import Mathlib.Tactic.FieldSimp
import Mathlib.Tactic.Linarith
import Mathlib.Tactic.NormNum
import Mathlib.Tactic.Positivity
import Mathlib.Tactic.Ring
import DatabaseClient.Number.Binary64

set_option autoImplicit false

namespace DatabaseClient.Number

section Quotients

variable {num den k : Nat}

theorem lt_roundQuotient_iff (positive : 0 < den) :
    k < roundQuotient num den ↔
      (k : ℚ) + 1 / 2 < num / den ∨ ((k : ℚ) + 1 / 2 = num / den ∧ k % 2 = 1) := by
  have whole : k < roundQuotient num den ↔
      (2 * k + 1) * den < 2 * num ∨ ((2 * k + 1) * den = 2 * num ∧ k % 2 = 1) := by
    have divided : den * (num / den) + num % den = num := Nat.div_add_mod num den
    have rest : num % den < den := Nat.mod_lt num positive
    have doubled : (2 * k + 1) * den = 2 * (den * k) + den := by ring
    unfold roundQuotient
    rw [doubled]
    rcases Nat.lt_trichotomy k (num / den) with below | same | above
    next =>
      have gap : den * (k + 1) ≤ den * (num / den) := Nat.mul_le_mul_left den below
      rw [Nat.mul_succ] at gap
      dsimp only
      split_ifs <;> omega
    next =>
      rw [← same] at divided ⊢
      dsimp only
      split_ifs <;> omega
    next =>
      have gap : den * (num / den + 1) ≤ den * k := Nat.mul_le_mul_left den above
      rw [Nat.mul_succ] at gap
      dsimp only
      split_ifs <;> omega
  have divisor : (0 : ℚ) < den := by exact_mod_cast positive
  have strict : (k : ℚ) + 1 / 2 < num / den ↔ (2 * k + 1) * den < 2 * num := by
    rw [lt_div_iff₀ divisor, ← Nat.cast_lt (α := ℚ)]
    push_cast
    constructor <;> intro order <;> linarith
  have exact : (k : ℚ) + 1 / 2 = num / den ↔ (2 * k + 1) * den = 2 * num := by
    rw [eq_div_iff divisor.ne', ← Nat.cast_inj (R := ℚ)]
    push_cast
    constructor <;> intro same <;> linarith
  rw [whole, strict, exact]

theorem roundQuotient_le (positive : 0 < den) (below : (num / den : ℚ) ≤ k) :
    roundQuotient num den ≤ k := by
  rw [← Nat.not_lt, lt_roundQuotient_iff positive]
  rintro (above | ⟨above, -⟩) <;> linarith

theorem le_roundQuotient (positive : 0 < den) (above : (k : ℚ) ≤ num / den) :
    k ≤ roundQuotient num den := by
  cases k with
  | zero => exact Nat.zero_le _
  | succ k =>
    refine (lt_roundQuotient_iff positive).mpr (.inl ?_)
    push_cast at above
    linarith

theorem le_roundQuotient_of_even (positive : 0 < den) (even : k % 2 = 0) (nonzero : k ≠ 0) :
    k ≤ roundQuotient num den ↔ (k : ℚ) - 1 / 2 ≤ num / den := by
  obtain ⟨k, rfl⟩ := Nat.exists_eq_succ_of_ne_zero nonzero
  have odd : k % 2 = 1 := by omega
  have half : ((k.succ : ℕ) : ℚ) - 1 / 2 = k + 1 / 2 := by
    push_cast
    ring
  rw [Nat.succ_le_iff, lt_roundQuotient_iff positive, half, le_iff_lt_or_eq]
  simp [odd]

end Quotients

namespace Binary64

def value (x : Binary64) : ℚ := x.significand * 2 ^ x.exponent

theorem value_nonneg (x : Binary64) : 0 ≤ x.value := by
  unfold value
  positivity

theorem value_eq_zero {x : Binary64} (zero : x.significand = 0) : x.value = 0 := by
  simp [value, zero]

theorem two_zpow_add_one (n : Int) : (2 : ℚ) ^ (n + 1) = 2 ^ n + 2 ^ n := by
  rw [zpow_add_one₀ two_ne_zero, mul_two]

theorem two_zpow_units (n : Int) : (2 : ℚ) ^ (n + 1) = ((2 ^ 53 : ℕ) : ℚ) * 2 ^ (n - 52) := by
  rw [Nat.cast_pow, Nat.cast_two, ← zpow_natCast, ← zpow_add₀ two_ne_zero]
  congr 1
  omega

theorem one_lt_middle {n : Int} (positive : 0 < n) : (1 : ℚ) < 2 ^ (n + 1) - 2 ^ (n - 53) := by
  have unit : (2 : ℚ) ^ (n - 53) ≤ 2 ^ n := zpow_le_zpow_right₀ one_le_two (by omega)
  have one : (1 : ℚ) < 2 ^ n := one_lt_zpow₀ one_lt_two positive
  rw [two_zpow_add_one]
  linarith

theorem lt_middle_of_tiny {q : ℚ} {n : Int} (tiny : q ≤ 2 ^ (-1075 : ℤ)) (positive : 0 < n) :
    q < 2 ^ (n + 1) - 2 ^ (n - 53) := by
  have one : (2 : ℚ) ^ (-1075 : ℤ) ≤ 1 := zpow_le_one_of_nonpos₀ one_le_two (by norm_num)
  exact (tiny.trans one).trans_lt (one_lt_middle positive)

theorem shifted_quotient (num den : Nat) (e : Int) :
    ((num <<< (-e).toNat : ℕ) : ℚ) / ((den <<< e.toNat : ℕ) : ℚ) = num / den / 2 ^ e := by
  rw [Nat.shiftLeft_eq, Nat.shiftLeft_eq]
  push_cast
  rcases le_total 0 e with positive | negative
  next =>
    obtain ⟨n, rfl⟩ := Int.eq_ofNat_of_zero_le positive
    simp [div_div]
  next =>
    obtain ⟨n, rfl⟩ := Int.exists_eq_neg_ofNat negative
    simp [div_eq_mul_inv, mul_right_comm]

section Nearest

variable {num den : Nat}

theorem floorLog_bounds (numerator : 0 < num) (denominator : 0 < den) :
    (2 : ℚ) ^ floorLog num den ≤ num / den ∧ (num / den : ℚ) < 2 ^ (floorLog num den + 1) := by
  have divisor : (0 : ℚ) < den := by exact_mod_cast denominator
  have two : (2 : ℚ) ≠ 0 := two_ne_zero
  have low : (2 : ℚ) ^ (num.log2 : ℤ) ≤ num := by
    exact_mod_cast Nat.log2_self_le numerator.ne'
  have high : (num : ℚ) < 2 ^ (num.log2 + 1 : ℤ) := by
    exact_mod_cast Nat.lt_log2_self
  have lowDen : (2 : ℚ) ^ (den.log2 : ℤ) ≤ den := by
    exact_mod_cast Nat.log2_self_le denominator.ne'
  have highDen : (den : ℚ) < 2 ^ (den.log2 + 1 : ℤ) := by
    exact_mod_cast Nat.lt_log2_self
  set e : Int := (num.log2 : Int) - den.log2 with difference
  have tested : den <<< e.toNat ≤ num <<< (-e).toNat ↔ (2 : ℚ) ^ e ≤ num / den := by
    have shifted : (0 : ℚ) < ((den <<< e.toNat : ℕ) : ℚ) := by
      rw [Nat.shiftLeft_eq]
      push_cast
      positivity
    rw [← Nat.cast_le (α := ℚ), ← one_le_div shifted, shifted_quotient, one_le_div (by positivity)]
  have above : (num / den : ℚ) < 2 ^ (e + 1) := by
    rw [div_lt_iff₀ divisor]
    calc (num : ℚ) < 2 ^ (num.log2 + 1 : ℤ) := high
      _ = 2 ^ (e + 1) * 2 ^ (den.log2 : ℤ) := by rw [← zpow_add₀ two]; congr 1; omega
      _ ≤ 2 ^ (e + 1) * den := by gcongr
  have below : (2 : ℚ) ^ (e - 1) < num / den := by
    rw [lt_div_iff₀ divisor]
    calc (2 : ℚ) ^ (e - 1) * den < 2 ^ (e - 1) * 2 ^ (den.log2 + 1 : ℤ) := by gcongr
      _ = 2 ^ (num.log2 : ℤ) := by rw [← zpow_add₀ two]; congr 1; omega
      _ ≤ num := low
  unfold floorLog
  rw [← difference]
  dsimp only
  split_ifs with fits
  next => exact ⟨tested.mp fits, above⟩
  next =>
    rw [tested, not_le] at fits
    exact ⟨below.le, by rwa [sub_add_cancel]⟩

/-- The nearest double, if doubles had no greatest exponent. -/
def rounded (num den : Nat) : Binary64 :=
  let e := lastBit num den
  ⟨roundQuotient (num <<< (-e).toNat) (den <<< e.toNat), e⟩

theorem nearest_eq (numerator : 0 < num) :
    nearest? num den =
      if 971 < lastBit num den ∨ (lastBit num den = 971 ∧ (rounded num den).significand = 1 <<< 53)
      then none else some (rounded num den) := by
  rw [nearest?, if_neg numerator.ne']
  rfl

theorem eq_rounded (numerator : 0 < num) {x : Binary64} (read : nearest? num den = some x) :
    x = rounded num den := by
  rw [nearest_eq numerator] at read
  split at read
  next => simp at read
  next => exact (Option.some.inj read).symm

theorem shifted_pos (denominator : 0 < den) (n : Nat) : 0 < den <<< n := by
  rw [Nat.shiftLeft_eq]
  positivity

section Crossing

variable (numerator : 0 < num) (denominator : 0 < den) {k n : Int}
include numerator denominator

theorem floorLog_le (below : (num / den : ℚ) ≤ 2 ^ k) : floorLog num den ≤ k :=
  (zpow_le_zpow_iff_right₀ one_lt_two).mp
    ((floorLog_bounds numerator denominator).1.trans below)

theorem le_floorLog (above : (2 : ℚ) ^ k ≤ num / den) : k ≤ floorLog num den :=
  Int.lt_add_one_iff.mp <| (zpow_lt_zpow_iff_right₀ one_lt_two).mp
    (above.trans_lt (floorLog_bounds numerator denominator).2)

theorem value_rounded_le (bound : -1074 ≤ k) (below : (num / den : ℚ) ≤ 2 ^ k) :
    (rounded num den).value ≤ 2 ^ k := by
  have order : floorLog num den ≤ k := floorLog_le numerator denominator below
  have last : lastBit num den ≤ k := by
    simp only [lastBit]
    omega
  obtain ⟨units, rfl⟩ := Int.le.dest last
  rw [zpow_add₀ two_ne_zero, mul_comm, zpow_natCast] at below ⊢
  have significand : (rounded num den).significand ≤ 2 ^ units := by
    refine roundQuotient_le (shifted_pos denominator _) ?_
    rw [shifted_quotient, div_le_iff₀ (by positivity)]
    exact_mod_cast below
  have cast : ((rounded num den).significand : ℚ) ≤ 2 ^ units := by exact_mod_cast significand
  exact mul_le_mul_of_nonneg_right cast (by positivity)

theorem le_value_rounded (bound : -1074 ≤ k) (above : (2 : ℚ) ^ k ≤ num / den) :
    2 ^ k ≤ (rounded num den).value := by
  have order : k ≤ floorLog num den := le_floorLog numerator denominator above
  have last : lastBit num den ≤ floorLog num den := by
    simp only [lastBit]
    omega
  obtain ⟨low, -⟩ := floorLog_bounds numerator denominator
  refine (zpow_le_zpow_right₀ one_le_two order).trans ?_
  obtain ⟨units, split⟩ := Int.le.dest last
  rw [← split, zpow_add₀ two_ne_zero, mul_comm, zpow_natCast] at low ⊢
  have significand : 2 ^ units ≤ (rounded num den).significand := by
    refine le_roundQuotient (shifted_pos denominator _) ?_
    rw [shifted_quotient, le_div_iff₀ (by positivity)]
    exact_mod_cast low
  have cast : (2 : ℚ) ^ units ≤ (rounded num den).significand := by exact_mod_cast significand
  exact mul_le_mul_of_nonneg_right cast (by positivity)

theorem le_value_rounded_iff (normal : -1022 ≤ n) :
    2 ^ (n + 1) ≤ (rounded num den).value ↔ (2 : ℚ) ^ (n + 1) - 2 ^ (n - 53) ≤ num / den := by
  obtain ⟨low, high⟩ := floorLog_bounds numerator denominator
  have step : (2 : ℚ) ^ (n + 1) = 2 ^ n + 2 ^ n := two_zpow_add_one n
  have half : (2 : ℚ) ^ (n - 53) ≤ 2 ^ n := zpow_le_zpow_right₀ one_le_two (by omega)
  rcases lt_trichotomy (floorLog num den) n with below | same | above
  next =>
    have small : (num / den : ℚ) < 2 ^ n :=
      high.trans_le (zpow_le_zpow_right₀ one_le_two (by omega))
    have stays := value_rounded_le numerator denominator (by omega) small.le
    have positive : (0 : ℚ) < 2 ^ n := by positivity
    constructor <;> intro reached <;> linarith
  next =>
    have last : lastBit num den = n - 52 := by
      simp only [lastBit, same]
      omega
    have unit : (0 : ℚ) < 2 ^ (n - 52) := by positivity
    have whole : (2 : ℚ) ^ (n + 1) = ((2 ^ 53 : ℕ) : ℚ) * 2 ^ (n - 52) := two_zpow_units n
    have middle : (2 : ℚ) ^ (n - 53) = 1 / 2 * 2 ^ (n - 52) := by
      rw [show n - 52 = n - 53 + 1 by omega, zpow_add_one₀ two_ne_zero]
      ring
    have crossed : 2 ^ 53 ≤ (rounded num den).significand ↔
        ((2 ^ 53 : ℕ) : ℚ) - 1 / 2 ≤ num / den / 2 ^ (n - 52) := by
      rw [← last, ← shifted_quotient]
      exact le_roundQuotient_of_even (shifted_pos denominator _) (by norm_num) (by norm_num)
    have exponent : (rounded num den).exponent = n - 52 := last
    rw [le_div_iff₀ unit, sub_mul, ← whole, ← middle] at crossed
    rw [← crossed, value, exponent, whole, mul_le_mul_iff_left₀ unit, Nat.cast_le]
  next =>
    have large : (2 : ℚ) ^ (n + 1) ≤ num / den :=
      (zpow_le_zpow_right₀ one_le_two (by omega)).trans low
    have positive : (0 : ℚ) < 2 ^ (n - 53) := by positivity
    exact iff_of_true (le_value_rounded numerator denominator (by omega) large) (by linarith)

theorem overflow_iff :
    (971 < lastBit num den ∨ (lastBit num den = 971 ∧ (rounded num den).significand = 1 <<< 53)) ↔
      (2 : ℚ) ^ (1024 : ℤ) ≤ (rounded num den).value := by
  obtain ⟨low, high⟩ := floorLog_bounds numerator denominator
  rcases lt_trichotomy (lastBit num den) 971 with below | same | above
  next =>
    have small : (num / den : ℚ) ≤ 2 ^ (1023 : ℤ) := by
      refine high.le.trans (zpow_le_zpow_right₀ one_le_two ?_)
      simp only [lastBit] at below
      omega
    have stays := value_rounded_le numerator denominator (by norm_num) small
    have less : (2 : ℚ) ^ (1023 : ℤ) < 2 ^ (1024 : ℤ) :=
      zpow_lt_zpow_right₀ one_lt_two (by norm_num)
    refine iff_of_false ?_ (not_le.mpr (stays.trans_lt less))
    omega
  next =>
    have order : floorLog num den + 1 = 1024 := by
      simp only [lastBit] at same
      omega
    have stays := value_rounded_le numerator denominator (by norm_num) (order ▸ high).le
    have unit : (0 : ℚ) < 2 ^ (971 : ℤ) := by positivity
    have whole : (2 : ℚ) ^ (1024 : ℤ) = ((2 ^ 53 : ℕ) : ℚ) * 2 ^ (971 : ℤ) := two_zpow_units 1023
    have exponent : (rounded num den).exponent = 971 := same
    rw [value, exponent, whole, mul_le_mul_iff_left₀ unit, Nat.cast_le] at stays ⊢
    rw [Nat.shiftLeft_eq]
    omega
  next =>
    have large : (2 : ℚ) ^ (1024 : ℤ) ≤ num / den := by
      refine (zpow_le_zpow_right₀ one_le_two ?_).trans low
      simp only [lastBit] at above
      omega
    exact iff_of_true (.inl above) (le_value_rounded numerator denominator (by norm_num) large)

end Crossing

theorem nearest_eq_none_iff (denominator : 0 < den) :
    nearest? num den = none ↔ (2 : ℚ) ^ (1024 : ℤ) - 2 ^ (970 : ℤ) ≤ num / den := by
  rcases Nat.eq_zero_or_pos num with rfl | numerator
  next =>
    have positive : (0 : ℚ) < 2 ^ (1024 : ℤ) - 2 ^ (970 : ℤ) :=
      zero_lt_one.trans (one_lt_middle (n := 1023) (by simp))
    simpa [nearest?] using positive
  next =>
    have crossing := le_value_rounded_iff numerator denominator (n := 1023) (by norm_num)
    rw [nearest_eq numerator, ite_eq_left_iff, overflow_iff numerator denominator]
    exact Iff.trans (by simp) crossing

section Scaling

variable {scale : Nat}

theorem scaled_quotient (x : Binary64) (scale : Nat) :
    (((x.significand * scale) <<< x.exponent.toNat : ℕ) : ℚ) /
        ((1 <<< (-x.exponent).toNat : ℕ) : ℚ) =
      x.value * scale := by
  have quotient := shifted_quotient (x.significand * scale) 1 (-x.exponent)
  rw [neg_neg] at quotient
  rw [quotient, value, zpow_neg]
  push_cast
  rw [div_one, div_inv_eq_mul]
  ring

theorem scaled_le {x : Binary64} {n : Nat} (below : x.value * scale ≤ n) : x.scaled scale ≤ n :=
  roundQuotient_le (shifted_pos Nat.one_pos _) (by rwa [scaled_quotient])

theorem scaled_eq_zero {x : Binary64} (zero : x.significand = 0) : x.scaled scale = 0 :=
  Nat.le_zero.mp (scaled_le (by simp [value_eq_zero zero]))

theorem le_scaled {x : Binary64} {n : Nat} (above : n ≤ x.value * scale) : n ≤ x.scaled scale :=
  le_roundQuotient (shifted_pos Nat.one_pos _) (by rwa [scaled_quotient])

theorem le_scaled_rounded_iff (numerator : 0 < num) (denominator : 0 < den) (positive : 0 < scale)
    {n : Nat} (large : 52 ≤ n) :
    2 ^ (n + 1) * scale ≤ (rounded num den).scaled scale ↔
      (2 : ℚ) ^ (n + 1 : ℤ) - 2 ^ (n - 53 : ℤ) ≤ num / den := by
  have factor : (0 : ℚ) < scale := by exact_mod_cast positive
  rw [← le_value_rounded_iff numerator denominator (by omega)]
  have limit : (2 : ℚ) ^ (n + 1 : ℤ) * scale = ((2 ^ (n + 1) * scale : ℕ) : ℚ) := by
    push_cast
    rw [← zpow_natCast]
    rfl
  constructor
  next =>
    intro reached
    rcases lt_or_ge (num / den : ℚ) (2 ^ (n : ℤ)) with small | passed
    next =>
      have stays := value_rounded_le numerator denominator (by omega) small.le
      have less : (rounded num den).scaled scale ≤ 2 ^ n * scale := by
        refine scaled_le ?_
        push_cast
        rw [zpow_natCast] at stays
        gcongr
      have doubled : 2 ^ (n + 1) * scale = 2 * (2 ^ n * scale) := by ring
      have unit : 0 < 2 ^ n * scale := by positivity
      omega
    next =>
      have order : (n : ℤ) ≤ floorLog num den := le_floorLog numerator denominator passed
      have whole : 0 ≤ (rounded num den).exponent := by
        simp only [rounded, lastBit]
        omega
      obtain ⟨e, exponent⟩ := Int.eq_ofNat_of_zero_le whole
      have value : (rounded num den).value * scale =
          ((rounded num den).significand * 2 ^ e * scale : ℕ) := by
        rw [Binary64.value, exponent]
        push_cast
        rw [← zpow_natCast]
      have multiple : ((2 ^ (n + 1) * scale : ℕ) : ℚ) ≤ (rounded num den).value * scale := by
        rw [value]
        exact_mod_cast reached.trans (scaled_le value.le)
      rw [← limit] at multiple
      exact le_of_mul_le_mul_right multiple factor
  next =>
    intro reached
    refine le_scaled ?_
    rw [← limit]
    gcongr

end Scaling

end Nearest

section Decimals

variable {digits : Nat} {exponent : Int}

theorem decimal_quotient (digits : Nat) (exponent : Int) :
    ((digits * Nat.pow 10 exponent.toNat : ℕ) : ℚ) / ((Nat.pow 10 (-exponent).toNat : ℕ) : ℚ) =
      digits * 10 ^ exponent := by
  simp only [Nat.pow_eq]
  push_cast
  rcases le_total 0 exponent with positive | negative
  next =>
    obtain ⟨n, rfl⟩ := Int.eq_ofNat_of_zero_le positive
    simp
  next =>
    obtain ⟨n, rfl⟩ := Int.exists_eq_neg_ofNat negative
    simp [div_eq_mul_inv]

theorem ofDecimal_cases (digits : Nat) (exponent : Int) :
    ((digits : ℚ) * 10 ^ exponent ≤ 2 ^ (-1075 : ℤ) ∧ ofDecimal? digits exponent = some zero) ∨
    ((2 : ℚ) ^ (1024 : ℤ) ≤ digits * 10 ^ exponent ∧ ofDecimal? digits exponent = none) ∨
    (∃ num den : Nat, 0 < num ∧ 0 < den ∧ (num / den : ℚ) = digits * 10 ^ exponent ∧
      ofDecimal? digits exponent = nearest? num den) := by
  unfold ofDecimal?
  split_ifs with none huge tiny
  next => exact .inl ⟨by rw [none, Nat.cast_zero, zero_mul]; positivity, rfl⟩
  next =>
    refine .inr (.inl ⟨?_, rfl⟩)
    have one : (1 : ℚ) ≤ digits := by exact_mod_cast Nat.one_le_iff_ne_zero.mpr none
    have power : (10 : ℚ) ^ (309 : ℤ) ≤ 10 ^ exponent := zpow_le_zpow_right₀ (by norm_num) huge
    have whole : 2 ^ 1024 ≤ 10 ^ 309 := by decide +kernel
    have least : (2 : ℚ) ^ (1024 : ℤ) ≤ 10 ^ (309 : ℤ) := by exact_mod_cast whole
    have positive : (0 : ℚ) ≤ 10 ^ exponent := by positivity
    calc (2 : ℚ) ^ (1024 : ℤ) ≤ 10 ^ exponent := least.trans power
      _ ≤ digits * 10 ^ exponent := le_mul_of_one_le_left positive one
  next =>
    refine .inl ⟨?_, rfl⟩
    have bits : (digits : ℚ) ≤ 10 ^ (digits.log2 + 1 : ℤ) := by
      have few : digits ≤ 10 ^ (digits.log2 + 1) :=
        Nat.lt_log2_self.le.trans (Nat.pow_le_pow_left (by norm_num) _)
      exact_mod_cast few
    -- Half of the least positive double.
    have least : (10 : ℚ) ^ (-324 : ℤ) ≤ 2 ^ (-1075 : ℤ) := by
      have whole : 2 ^ 1075 ≤ 10 ^ 324 := by decide +kernel
      rw [zpow_neg, zpow_neg]
      gcongr
      exact_mod_cast whole
    calc (digits : ℚ) * 10 ^ exponent
      _ ≤ 10 ^ (digits.log2 + 1 : ℤ) * 10 ^ exponent := by gcongr
      _ = 10 ^ (digits.log2 + 1 + exponent) := (zpow_add₀ (by norm_num) _ _).symm
      _ ≤ 10 ^ (-324 : ℤ) := zpow_le_zpow_right₀ (by norm_num) (by omega)
      _ ≤ 2 ^ (-1075 : ℤ) := least
  next =>
    refine .inr (.inr ⟨_, _, ?_, ?_, decimal_quotient digits exponent, rfl⟩)
    next => exact Nat.mul_pos (Nat.pos_of_ne_zero none) (Nat.pow_pos (by norm_num))
    next => exact Nat.pow_pos (by norm_num)

theorem ofDecimal_eq_none_iff :
    ofDecimal? digits exponent = none ↔
      (2 : ℚ) ^ (1024 : ℤ) - 2 ^ (970 : ℤ) ≤ digits * 10 ^ exponent := by
  rcases ofDecimal_cases digits exponent with
    ⟨small, zero⟩ | ⟨large, none⟩ | ⟨num, den, numerator, denominator, quotient, nearest⟩
  next =>
    rw [zero]
    exact iff_of_false (by simp) (not_le.mpr (lt_middle_of_tiny (n := 1023) small (by norm_num)))
  next =>
    rw [none]
    exact iff_of_true rfl ((sub_le_self _ (by positivity)).trans large)
  next => rw [nearest, nearest_eq_none_iff denominator, quotient]

theorem le_scaled_ofDecimal_iff {x : Binary64} (read : ofDecimal? digits exponent = some x)
    {scale : Nat} (positive : 0 < scale) {n : Nat} (large : 52 ≤ n) :
    2 ^ (n + 1) * scale ≤ x.scaled scale ↔
      (2 : ℚ) ^ (n + 1 : ℤ) - 2 ^ (n - 53 : ℤ) ≤ digits * 10 ^ exponent := by
  rcases ofDecimal_cases digits exponent with
    ⟨small, zero⟩ | ⟨large, none⟩ | ⟨num, den, numerator, denominator, quotient, nearest⟩
  next =>
    obtain rfl := Option.some.inj (zero.symm.trans read)
    have nothing : Binary64.zero.scaled scale = 0 := scaled_eq_zero rfl
    have unit : 0 < 2 ^ (n + 1) * scale := by positivity
    exact iff_of_false (by omega) (not_le.mpr (lt_middle_of_tiny small (by omega)))
  next => simp [none] at read
  next =>
    rw [eq_rounded numerator (nearest.symm.trans read), ← quotient]
    exact le_scaled_rounded_iff numerator denominator positive large

end Decimals

end Binary64

end DatabaseClient.Number
