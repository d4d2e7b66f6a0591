import DatabaseClient.Proofs.Number.Rounding
import DatabaseClient.Proofs.Parameters
import DatabaseClient.Timeouts

set_option autoImplicit false

namespace DatabaseClient.Timeouts

def Unreadable (text : String) : Prop :=
  ∀ negative digits exponent,
    Number.scientific? text = some (.finite negative digits exponent) →
      (2 : ℚ) ^ (1024 : ℤ) - 2 ^ (970 : ℤ) ≤ digits * 10 ^ exponent

/-- A positive number whose double is no less than 2^64: the double below that is smaller by 2^11.
-/
def Excessive (text : String) : Prop :=
  ∃ digits exponent, Number.scientific? text = some (.finite false digits exponent) ∧
    (2 : ℚ) ^ (64 : ℤ) - 2 ^ (10 : ℤ) ≤ digits * 10 ^ exponent ∧
    (digits : ℚ) * 10 ^ exponent < 2 ^ (1024 : ℤ) - 2 ^ (970 : ℤ)

theorem ofSeconds_unreadable_iff (text : String) :
    ofSeconds text = .error .unreadable ↔ Unreadable text := by
  unfold ofSeconds Unreadable
  split
  next negative digits exponent number =>
    have same : (∀ sign more power, Number.scientific? text = some (.finite sign more power) →
        (2 : ℚ) ^ (1024 : ℤ) - 2 ^ (970 : ℤ) ≤ more * 10 ^ power) ↔
        (2 : ℚ) ^ (1024 : ℤ) - 2 ^ (970 : ℤ) ≤ digits * 10 ^ exponent := by
      simp [number]
    rw [same, ← Number.Binary64.ofDecimal_eq_none_iff]
    split
    next none => simp [none]
    next x read =>
      refine iff_of_false ?_ (by simp [read])
      split_ifs
      next => simp
      next => split <;> simp
  next other =>
    refine iff_of_true rfl fun negative digits exponent number => ?_
    exact absurd number (other negative digits exponent)

theorem ofNanos_eq_none_iff (nanos : Nat) :
    Duration.ofNanos? nanos = none ↔ 2 ^ (63 + 1) * 1000000000 ≤ nanos := by
  unfold Duration.ofNanos?
  split_ifs with bounded <;> simp [UInt64.size] at bounded ⊢ <;> omega

theorem le_scaled_iff {digits : Nat} {exponent : Int} {x : Number.Binary64}
    (read : Number.Binary64.ofDecimal? digits exponent = some x) :
    2 ^ (63 + 1) * 1000000000 ≤ x.scaled 1000000000 ↔
      (2 : ℚ) ^ (64 : ℤ) - 2 ^ (10 : ℤ) ≤ digits * 10 ^ exponent := by
  have second : 0 < 1000000000 := by norm_num
  have limit : (2 : ℚ) ^ ((63 : ℕ) + 1 : ℤ) - 2 ^ ((63 : ℕ) - 53 : ℤ) =
      2 ^ (64 : ℤ) - 2 ^ (10 : ℤ) := by norm_num
  rw [Number.Binary64.le_scaled_ofDecimal_iff read second (by norm_num), limit]

theorem ofSeconds_tooLong_iff (text : String) :
    ofSeconds text = .error .tooLong ↔ Excessive text := by
  unfold ofSeconds Excessive
  split
  next negative digits exponent number =>
    have same : (∃ more power, Number.scientific? text = some (.finite false more power) ∧
        (2 : ℚ) ^ (64 : ℤ) - 2 ^ (10 : ℤ) ≤ more * 10 ^ power ∧
        (more : ℚ) * 10 ^ power < 2 ^ (1024 : ℤ) - 2 ^ (970 : ℤ)) ↔
        negative = false ∧ (2 : ℚ) ^ (64 : ℤ) - 2 ^ (10 : ℤ) ≤ digits * 10 ^ exponent ∧
          (digits : ℚ) * 10 ^ exponent < 2 ^ (1024 : ℤ) - 2 ^ (970 : ℤ) := by
      simp [number]
    rw [same, ← not_le, ← Number.Binary64.ofDecimal_eq_none_iff]
    split
    next none => simp [none]
    next x read =>
      rw [← le_scaled_iff read, ← ofNanos_eq_none_iff]
      split_ifs with stopped
      next =>
        refine iff_of_false (by simp) ?_
        rintro ⟨positive, beyond, -⟩
        have zero : x.significand = 0 := stopped.resolve_left (by simp [positive])
        have nothing : x.scaled 1000000000 = 0 := Number.Binary64.scaled_eq_zero zero
        rw [ofNanos_eq_none_iff] at beyond
        omega
      next =>
        obtain ⟨positive, -⟩ := not_or.mp stopped
        cases span : Duration.ofNanos? (x.scaled 1000000000) <;> simp [positive, read]
  next other =>
    refine iff_of_false (by simp) ?_
    rintro ⟨digits, exponent, number, -⟩
    exact other false digits exponent number

def refusal? (pair : String × String) : Option Refusal :=
  if pair.1 = "wait_timeout" ∨ pair.1 = "connect_timeout" then
    match ofSeconds pair.2 with
    | .ok _ => none
    | .error fault => some (fault.refusal pair.1 pair.2)
  else none

theorem failure_set (timeouts : Timeouts) (pair : String × String) :
    Parameters.failure? (timeouts.set pair) = refusal? pair := by
  obtain ⟨key, value⟩ := pair
  unfold set refusal?
  by_cases polling : key = "wait_timeout"
  next =>
    cases read : ofSeconds value <;>
      simp [polling, read, Except.mapError, Except.map, Parameters.failure?]
  next =>
    by_cases connecting : key = "connect_timeout"
    next =>
      cases read : ofSeconds value <;>
        simp [connecting, read, Except.mapError, Except.map, Parameters.failure?]
    next => simp [polling, connecting, Parameters.failure?]

theorem ofParameters_eq_error_iff (text : String) (refusal : Refusal) :
    ofParameters text = .error refusal ↔
      ∃ before pair after, Parameters.pairs text = before ++ pair :: after ∧
        refusal? pair = some refusal ∧ ∀ other ∈ before, refusal? other = none := by
  rw [ofParameters, ← List.findSome?_eq_some_iff, ← Parameters.failure_foldlM failure_set unlimited]
  exact Parameters.failure_eq_some_iff.symm

theorem ofParameters_eq_ok_iff (text : String) :
    (∃ timeouts, ofParameters text = .ok timeouts) ↔
      ∀ pair ∈ Parameters.pairs text, refusal? pair = none := by
  rw [ofParameters, ← List.findSome?_eq_none_iff, ← Parameters.failure_foldlM failure_set unlimited]
  exact Parameters.failure_eq_none_iff.symm

theorem set_cases {timeouts later : Timeouts} {pair : String × String}
    (read : timeouts.set pair = .ok later) :
    (pair.1 = "wait_timeout" ∧
      ∃ polling, ofSeconds pair.2 = .ok polling ∧ later = { timeouts with polling }) ∨
    (pair.1 = "connect_timeout" ∧
      ∃ connecting, ofSeconds pair.2 = .ok connecting ∧ later = { timeouts with connecting }) ∨
    (pair.1 ≠ "wait_timeout" ∧ pair.1 ≠ "connect_timeout" ∧ later = timeouts) := by
  obtain ⟨key, value⟩ := pair
  unfold set at read
  by_cases first : key = "wait_timeout"
  next =>
    cases found : ofSeconds value with
    | error fault => simp [first, found, Except.mapError, Except.map] at read
    | ok polling =>
      simp only [first, found, Except.mapError, Except.map, if_true] at read
      exact .inl ⟨first, polling, rfl, (Except.ok.inj read).symm⟩
  next =>
    by_cases second : key = "connect_timeout"
    next =>
      cases found : ofSeconds value with
      | error fault => simp [second, found, Except.mapError, Except.map] at read
      | ok connecting =>
        simp only [second, found, Except.mapError, Except.map, if_true] at read
        exact .inr (.inl ⟨second, connecting, rfl, (Except.ok.inj read).symm⟩)
    next => exact .inr (.inr ⟨first, second, by simpa [first, second] using read.symm⟩)

theorem setsPolling :
    Parameters.Field set polling "wait_timeout" fun value limit => ofSeconds value = .ok limit where
  step read := by
    rcases set_cases read with
      ⟨key, polling, found, rfl⟩ | ⟨key, connecting, -, rfl⟩ | ⟨other, -, rfl⟩
    next => simpa [key] using found
    next => simp [key]
    next => simp [other]
  unique first second := Except.ok.inj (first.symm.trans second)

theorem setsConnecting :
    Parameters.Field set connecting "connect_timeout" fun value limit =>
      ofSeconds value = .ok limit where
  step read := by
    rcases set_cases read with
      ⟨key, polling, -, rfl⟩ | ⟨key, connecting, found, rfl⟩ | ⟨-, other, rfl⟩
    next => simp [key]
    next => simpa [key] using found
    next => simp [other]
  unique first second := Except.ok.inj (first.symm.trans second)

def Readable (pair : String × String) : Prop :=
  pair.1 = "wait_timeout" ∨ pair.1 = "connect_timeout" → ¬ Unreadable pair.2 ∧ ¬ Excessive pair.2

theorem refusal_eq_none_iff (pair : String × String) : refusal? pair = none ↔ Readable pair := by
  unfold refusal? Readable
  rw [← ofSeconds_unreadable_iff, ← ofSeconds_tooLong_iff]
  split_ifs with timeout
  next =>
    rcases ofSeconds pair.2 with (_ | _) | limit <;> simp [timeout]
  next => simp [timeout]

theorem refusal_eq_tooLong_iff (pair : String × String) :
    refusal? pair = some .tooLong ↔
      (pair.1 = "wait_timeout" ∨ pair.1 = "connect_timeout") ∧ Excessive pair.2 := by
  unfold refusal?
  rw [← ofSeconds_tooLong_iff]
  split_ifs with timeout
  next =>
    rcases ofSeconds pair.2 with (_ | _) | limit <;> simp [timeout, Fault.refusal]
  next => simp [timeout]

theorem refusal_eq_invalid_iff (pair : String × String) (parameter : InvalidParameter) :
    refusal? pair = some (.invalid parameter) ↔
      (pair.1 = "wait_timeout" ∨ pair.1 = "connect_timeout") ∧ Unreadable pair.2 ∧
        pair = (parameter.key, parameter.value) := by
  obtain ⟨key, value⟩ := parameter
  unfold refusal?
  rw [← ofSeconds_unreadable_iff]
  split_ifs with timeout
  next =>
    rcases ofSeconds pair.2 with (_ | _) | limit <;>
      simp [timeout, Fault.refusal, Prod.ext_iff]
  next => simp [timeout]

/-- A parameter string gives timeouts if every value can be read. Otherwise the first that cannot
decides: it is reported with its key if it is no number or beyond the doubles, but it ends the
program if it is a number of 2^64 seconds or more, up to rounding. -/
theorem ofParameters_ends (text : String) :
    ((∃ timeouts, ofParameters text = .ok timeouts) ↔
      ∀ pair ∈ Parameters.pairs text, Readable pair) ∧
    (∀ parameter, ofParameters text = .error (.invalid parameter) ↔
      ∃ before after, Parameters.pairs text = before ++ (parameter.key, parameter.value) :: after ∧
        (parameter.key = "wait_timeout" ∨ parameter.key = "connect_timeout") ∧
        Unreadable parameter.value ∧ ∀ pair ∈ before, Readable pair) ∧
    (ofParameters text = .error .tooLong ↔
      ∃ before key value after, Parameters.pairs text = before ++ (key, value) :: after ∧
        (key = "wait_timeout" ∨ key = "connect_timeout") ∧
        Excessive value ∧ ∀ pair ∈ before, Readable pair) := by
  simp only [ofParameters_eq_ok_iff, ofParameters_eq_error_iff, refusal_eq_none_iff,
    refusal_eq_invalid_iff, refusal_eq_tooLong_iff]
  refine ⟨trivial, fun parameter => ⟨?_, ?_⟩, ?_, ?_⟩
  next =>
    rintro ⟨before, _, after, split, ⟨timeout, bad, rfl⟩, readable⟩
    exact ⟨before, after, split, timeout, bad, readable⟩
  next =>
    rintro ⟨before, after, split, timeout, bad, readable⟩
    exact ⟨before, _, after, split, ⟨timeout, bad, rfl⟩, readable⟩
  next =>
    rintro ⟨before, ⟨key, value⟩, after, split, ⟨timeout, bad⟩, readable⟩
    exact ⟨before, key, value, after, split, timeout, bad, readable⟩
  next =>
    rintro ⟨before, key, value, after, split, timeout, bad, readable⟩
    exact ⟨before, (key, value), after, split, ⟨timeout, bad⟩, readable⟩

-- The last whole number of seconds that can be read, and the first that cannot.
example :
    ofParameters "wait_timeout=18446744073709550591" =
      .ok ⟨some ⟨(2 ^ 64 - 2 ^ 11) * 1000000000, by decide⟩, none⟩ ∧
    ofParameters "wait_timeout=18446744073709550592" = .error .tooLong := by decide +kernel

/-- A timeout of 10^20 seconds gives neither timeouts nor a refusal that names it. -/
theorem ofParameters_excessive :
    ofParameters "connect_timeout=1e20" = .error .tooLong ∧
    ¬ ((∃ timeouts, ofParameters "connect_timeout=1e20" = .ok timeouts) ∨
      ∃ parameter, ofParameters "connect_timeout=1e20" = .error (.invalid parameter)) := by
  have ended : ofParameters "connect_timeout=1e20" = .error .tooLong := by decide
  refine ⟨ended, ?_⟩
  rw [ended]
  simp

end DatabaseClient.Timeouts
