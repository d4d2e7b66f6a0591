import DatabaseClient.Proofs.Number.Order
import DatabaseClient.Proofs.Number.Scientific
import DatabaseClient.Proofs.Timeouts

set_option autoImplicit false

namespace DatabaseClient.Timeouts

open Number (Denotes signed)
open Number.Binary64 (overflowBound)

variable {text : String} {q : ℚ}

theorem ofSeconds_refused_iff (written : Denotes text q) :
    ofSeconds text = .error .unreadable ↔ overflowBound ≤ |q| := by
  obtain ⟨negative, n, exponent, read, rfl⟩ := Number.denotes_iff.mp written
  rw [ofSeconds_unreadable_iff, Unreadable, Number.abs_signed negative (by positivity),
    overflowBound]
  simp [read]

theorem ofSeconds_excessive_iff (written : Denotes text q) :
    ofSeconds text = .error .tooLong ↔
      (2 : ℚ) ^ (64 : ℤ) - 2 ^ (10 : ℤ) ≤ q ∧ q < overflowBound := by
  obtain ⟨negative, n, exponent, read, rfl⟩ := Number.denotes_iff.mp written
  rw [ofSeconds_tooLong_iff, Excessive, overflowBound]
  cases negative with
  | false => simp [read, signed]
  | true =>
    have nonneg : (0 : ℚ) ≤ n * 10 ^ exponent := by positivity
    have positive : (0 : ℚ) < 2 ^ (64 : ℤ) - 2 ^ (10 : ℤ) := by norm_num
    refine iff_of_false (by simp [read]) ?_
    rintro ⟨above, -⟩
    exact absurd (positive.trans_le above) (not_lt.mpr (neg_nonpos.mpr nonneg))

theorem ofSeconds_none_of_double {negative : Bool} {n : Nat} {exponent : Int} {x : Number.Binary64}
    (read : Number.scientific? text = some (.finite negative n exponent))
    (double : Number.Binary64.ofDecimal? n exponent = some x) :
    ofSeconds text = .ok none ↔ negative = true ∨ x.significand = 0 := by
  simp only [ofSeconds, read, double]
  split_ifs with none
  next => simp [none]
  next => split <;> simp [none]

theorem ofSeconds_none_iff (written : Denotes text q) :
    ofSeconds text = .ok none ↔ -overflowBound < q ∧ q ≤ 2 ^ (-1075 : ℤ) := by
  obtain ⟨negative, n, exponent, read, rfl⟩ := Number.denotes_iff.mp written
  have bound : 0 < overflowBound := Number.Binary64.overflowBound_pos
  have tiny : (2 : ℚ) ^ (-1075 : ℤ) < overflowBound :=
    Number.Binary64.lt_middle_of_tiny (n := 1023) le_rfl (by norm_num)
  have least : (0 : ℚ) < 2 ^ (-1075 : ℤ) := by positivity
  have nonneg : (0 : ℚ) ≤ n * 10 ^ exponent := by positivity
  have finite : Number.Binary64.ofDecimal? n exponent = none ↔ overflowBound ≤ n * 10 ^ exponent :=
    Number.Binary64.ofDecimal_eq_none_iff
  cases double : Number.Binary64.ofDecimal? n exponent with
  | none =>
    have large := finite.mp double
    refine iff_of_false (by simp [ofSeconds, read, double]) ?_
    rintro ⟨above, below⟩
    cases negative <;> simp only [signed, if_true, Bool.false_eq_true, if_false] at above below <;>
      linarith
  | some x =>
    have small : (n : ℚ) * 10 ^ exponent < overflowBound := by
      rw [← not_le, ← finite, double]
      simp
    rw [ofSeconds_none_of_double read double,
      Number.Binary64.significand_ofDecimal_eq_zero_iff double]
    cases negative with
    | true =>
      exact iff_of_true (.inl rfl) ⟨neg_lt_neg small, (neg_nonpos.mpr nonneg).trans least.le⟩
    | false =>
      have above : -overflowBound < n * 10 ^ exponent := (neg_neg_of_pos bound).trans_le nonneg
      simp [signed, above]

theorem limit_le_overflowBound : (2 : ℚ) ^ (64 : ℤ) - 2 ^ (10 : ℤ) ≤ overflowBound := by
  have double : (2 : ℚ) ^ (1024 : ℤ) = 2 ^ (1023 : ℤ) + 2 ^ (1023 : ℤ) :=
    Number.Binary64.two_zpow_add_one 1023
  have half : (2 : ℚ) ^ (970 : ℤ) ≤ 2 ^ (1023 : ℤ) := zpow_le_zpow_right₀ one_le_two (by norm_num)
  calc (2 : ℚ) ^ (64 : ℤ) - 2 ^ (10 : ℤ)
    _ ≤ 2 ^ (64 : ℤ) := sub_le_self _ (by positivity)
    _ ≤ 2 ^ (1023 : ℤ) := zpow_le_zpow_right₀ one_le_two (by norm_num)
    _ ≤ overflowBound := by
      rw [overflowBound, double, add_sub_assoc]
      exact le_add_of_nonneg_right (sub_nonneg.mpr half)

theorem ofSeconds_some_iff (written : Denotes text q) :
    (∃ d, ofSeconds text = .ok (some d)) ↔
      (2 : ℚ) ^ (-1075 : ℤ) < q ∧ q < 2 ^ (64 : ℤ) - 2 ^ (10 : ℤ) := by
  have refused := ofSeconds_refused_iff written
  have excessive := ofSeconds_excessive_iff written
  have none := ofSeconds_none_iff written
  have least : (0 : ℚ) < 2 ^ (-1075 : ℤ) := by positivity
  rcases outcome : ofSeconds text with (_ | _) | (_ | d) <;>
    simp only [outcome, reduceCtorEq, Except.ok.injEq, Except.error.injEq, true_iff, false_iff,
      not_and, not_le, not_lt] at refused excessive none
  next =>
    refine iff_of_false (by simp) ?_
    rintro ⟨above, below⟩
    rw [abs_of_pos (least.trans above)] at refused
    exact absurd (below.trans_le limit_le_overflowBound) (not_lt.mpr refused)
  next => exact iff_of_false (by simp) fun range => absurd range.2 (not_lt.mpr excessive.1)
  next => exact iff_of_false (by simp) fun range => absurd range.1 (not_lt.mpr none.2)
  next =>
    obtain ⟨low, high⟩ := abs_lt.mp refused
    refine iff_of_true ⟨d, rfl⟩ ⟨none low, ?_⟩
    by_contra! beyond
    exact absurd (excessive beyond) (not_le.mpr high)

theorem nanos_of_ofNanos {nanos : Nat} {d : Duration} (fits : Duration.ofNanos? nanos = some d) :
    d.nanos = nanos := by
  unfold Duration.ofNanos? at fits
  split at fits
  next => rw [← Option.some.inj fits]
  next => simp at fits

theorem rounded_of_ofSeconds {d : Duration} (written : Denotes text q)
    (read : ofSeconds text = .ok (some d)) :
    ∃ (n : Nat) (exponent : Int) (x : Number.Binary64), q = n * 10 ^ exponent ∧
      Number.Binary64.ofDecimal? n exponent = some x ∧ d.nanos = x.scaled 1000000000 := by
  obtain ⟨negative, n, exponent, number, rfl⟩ := Number.denotes_iff.mp written
  cases double : Number.Binary64.ofDecimal? n exponent with
  | none => simp [ofSeconds, number, double] at read
  | some x =>
    simp only [ofSeconds, number, double] at read
    split_ifs at read with none
    next => simp at read
    next =>
      split at read
      next fits =>
        obtain rfl := Option.some.inj (Except.ok.inj read)
        obtain ⟨positive, -⟩ := not_or.mp none
        exact ⟨n, exponent, x, by simp [signed, positive], double, nanos_of_ofNanos fits⟩
      next => simp at read

theorem nanos_mono {lower upper : String} {x y : ℚ} {less more : Duration} (first : Denotes lower x)
    (second : Denotes upper y) (order : x ≤ y) (short : ofSeconds lower = .ok (some less))
    (long : ofSeconds upper = .ok (some more)) : less.nanos ≤ more.nanos := by
  obtain ⟨m, e, double, rfl, read, nanos⟩ := rounded_of_ofSeconds first short
  obtain ⟨n, f, other, rfl, also, seconds⟩ := rounded_of_ofSeconds second long
  rw [nanos, seconds]
  exact Number.Binary64.scaled_mono (Number.Binary64.value_ofDecimal_mono read also order) _

/-- Of two texts that denote numbers the lesser number gives the lesser timeout, where both give
one. If the greater number stands for no timeout, so does the lesser one, unless it is negative and
so large that it is refused. If the lesser number is positive and refused because it is too large,
so is the greater. A number gives a timeout exactly if it rounds to a positive double below the
seconds that do not fit. -/
theorem ofSeconds_monotone {lower upper : String} {x y : ℚ} (first : Denotes lower x)
    (second : Denotes upper y) (order : x ≤ y) :
    (∀ less more, ofSeconds lower = .ok (some less) → ofSeconds upper = .ok (some more) →
      less.nanos ≤ more.nanos) ∧
    (ofSeconds upper = .ok none → ofSeconds lower = .ok none ∨
      (x ≤ -overflowBound ∧ ofSeconds lower = .error .unreadable)) ∧
    (0 < x → ofSeconds lower = .error .unreadable →
      overflowBound ≤ y ∧ ofSeconds upper = .error .unreadable) ∧
    ((∃ less, ofSeconds lower = .ok (some less)) ↔
      (2 : ℚ) ^ (-1075 : ℤ) < x ∧ x < 2 ^ (64 : ℤ) - 2 ^ (10 : ℤ)) := by
  refine ⟨fun less more => nanos_mono first second order, ?_, ?_, ofSeconds_some_iff first⟩
  next =>
    rw [ofSeconds_none_iff first, ofSeconds_none_iff second, ofSeconds_refused_iff first]
    rintro ⟨-, tiny⟩
    rcases lt_or_ge (-overflowBound) x with finite | beyond
    next => exact .inl ⟨finite, order.trans tiny⟩
    next => exact .inr ⟨beyond, (le_neg.mp beyond).trans (neg_le_abs x)⟩
  next =>
    intro positive
    rw [ofSeconds_refused_iff first, ofSeconds_refused_iff second, abs_of_pos positive]
    intro beyond
    exact ⟨beyond.trans order, (beyond.trans order).trans (le_abs_self y)⟩

theorem ofSeconds_monotone_carried :
    let less : Duration := ⟨1000000000, by decide⟩
    let more : Duration := ⟨1000000001, by decide⟩
    Denotes ".9999999996" (9999999996 / 10 ^ 10) ∧
    Denotes "+10000000006E-10" (10000000006 / 10 ^ 10) ∧
    (9999999996 / 10 ^ 10 : ℚ) ≤ 10000000006 / 10 ^ 10 ∧
    ofSeconds ".9999999996" = .ok (some less) ∧
    ofSeconds "+10000000006E-10" = .ok (some more) ∧ less.nanos ≤ more.nanos := by
  intro less more
  have first : Denotes ".9999999996" (9999999996 / 10 ^ 10) :=
    Number.denotes_iff.mpr ⟨false, 9999999996, -10, by decide, by norm_num [signed]⟩
  have second : Denotes "+10000000006E-10" (10000000006 / 10 ^ 10) :=
    Number.denotes_iff.mpr ⟨false, 10000000006, -10, by decide, by norm_num [signed]⟩
  have order : (9999999996 / 10 ^ 10 : ℚ) ≤ 10000000006 / 10 ^ 10 := by norm_num
  have short : ofSeconds ".9999999996" = .ok (some less) := by decide +kernel
  have long : ofSeconds "+10000000006E-10" = .ok (some more) := by decide +kernel
  obtain ⟨timeouts, -⟩ := ofSeconds_monotone first second order
  exact ⟨first, second, order, short, long, timeouts less more short long⟩

end DatabaseClient.Timeouts
