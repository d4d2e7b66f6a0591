import DatabaseClient.Proofs.Number.Reading
import DatabaseClient.Proofs.Parameters
import DatabaseClient.Statement.Policy

set_option autoImplicit false

namespace DatabaseClient.Statement.Policy

def InSomeCase (text word : String) : Prop :=
  List.Forall₂ (fun c letter => c = letter ∨ c = letter.toUpper) text.toList word.toList

theorem inSomeCase_iff {word : String} (small : ∀ letter ∈ word.toList, letter.isLower = true)
    (text : String) : InSomeCase text word ↔ text.toList.map Char.toLower = word.toList := by
  unfold InSomeCase
  generalize text.toList = cs
  generalize word.toList = letters at small
  induction cs generalizing letters with
  | nil => simp [eq_comm]
  | cons c cs ih =>
    cases letters with
    | nil => simp
    | cons letter letters =>
      have rest := ih letters fun other member => small other (List.mem_cons_of_mem _ member)
      simp only [List.forall₂_cons, List.map_cons, List.cons.injEq, rest,
        Number.toLower_eq_iff (small letter List.mem_cons_self)]

def Threshold (value : String) : Option Nat → Prop
  | none => InSomeCase value "none"
  | some n => Number.Whole value n ∧ n < 2 ^ 32

def Capacity (value : String) (n : Nat) : Prop :=
  Number.Whole value n ∧ n < 2 ^ 64

theorem not_whole_of_word {value : String} {n : Nat}
    (word : value.toList.map Char.toLower = "none".toList) : ¬ Number.Whole value n := by
  obtain ⟨c, rest, split⟩ : ∃ c rest, value.toList = c :: rest := by
    cases text : value.toList with
    | nil => simp [text] at word
    | cons c rest => exact ⟨c, rest, rfl⟩
  have letter : c = 'n' ∨ c = 'n'.toUpper := by
    rw [split] at word
    exact (Number.toLower_eq_iff rfl).mp (List.cons.inj word).1
  rintro ⟨digits, same | same, -, only, -⟩
  next =>
    have digit := only c (by simp [← same, split])
    rcases letter with rfl | rfl <;> simp at digit
  next =>
    rw [split] at same
    obtain ⟨rfl, -⟩ := List.cons.inj same
    revert letter
    decide

theorem threshold_eq_some_iff (value : String) (threshold : Option Nat) :
    threshold? value = some threshold ↔ Threshold value threshold := by
  have word : InSomeCase value "none" ↔ value.toList.map Char.toLower = "none".toList :=
    inSomeCase_iff (List.all_eq_true.mp rfl) value
  unfold threshold?
  split
  next same =>
    cases threshold with
    | none => simp [Threshold, word, same]
    | some n => simp [Threshold, not_whole_of_word same]
  next other =>
    cases threshold with
    | none => simpa [Threshold, word] using other
    | some n => simp [Threshold, Number.whole_eq_some_iff, UInt32.size]

theorem capacity_eq_some_iff (value : String) (n : Nat) :
    capacity? value = some n ↔ Capacity value n := by
  simp [capacity?, Capacity, Number.whole_eq_some_iff, UInt64.size]

def Admitted (pair : String × String) : Prop :=
  (pair.1 = "prepare_threshold" → ∃ threshold, Threshold pair.2 threshold) ∧
    (pair.1 = "prepared_max" → ∃ capacity, Capacity pair.2 capacity)

def refusal? (pair : String × String) : Option InvalidParameter :=
  if pair.1 = "prepare_threshold" ∧ threshold? pair.2 = none ∨
      pair.1 = "prepared_max" ∧ capacity? pair.2 = none then some ⟨pair.1, pair.2⟩
  else none

theorem failure_set (policy : Policy) (pair : String × String) :
    Parameters.failure? (policy.set pair) = refusal? pair := by
  obtain ⟨key, value⟩ := pair
  unfold refusal? set
  by_cases first : key = "prepare_threshold"
  next => cases read : threshold? value <;> simp [first, read, Parameters.failure?]
  next =>
    by_cases second : key = "prepared_max"
    next => cases read : capacity? value <;> simp [second, read, Parameters.failure?]
    next => simp [first, second, Parameters.failure?]

theorem admitted_iff (pair : String × String) :
    Admitted pair ↔ ¬ (pair.1 = "prepare_threshold" ∧ threshold? pair.2 = none ∨
      pair.1 = "prepared_max" ∧ capacity? pair.2 = none) := by
  simp only [Admitted, ← threshold_eq_some_iff, ← capacity_eq_some_iff, not_or, not_and,
    Option.eq_none_iff_forall_ne_some, not_forall, not_not]

theorem refusal_eq_none_iff (pair : String × String) : refusal? pair = none ↔ Admitted pair := by
  rw [admitted_iff, refusal?]
  split <;> simp [*]

theorem refusal_eq_some_iff (pair : String × String) (parameter : InvalidParameter) :
    refusal? pair = some parameter ↔
      ¬ Admitted pair ∧ pair = (parameter.key, parameter.value) := by
  obtain ⟨key, value⟩ := parameter
  rw [admitted_iff, refusal?]
  split <;> simp [*, Prod.ext_iff]

theorem set_cases {policy later : Policy} {pair : String × String}
    (read : policy.set pair = .ok later) :
    (pair.1 = "prepare_threshold" ∧
      ∃ threshold, threshold? pair.2 = some threshold ∧ later = { policy with threshold }) ∨
    (pair.1 = "prepared_max" ∧
      ∃ capacity, capacity? pair.2 = some capacity ∧ later = { policy with capacity }) ∨
    (pair.1 ≠ "prepare_threshold" ∧ pair.1 ≠ "prepared_max" ∧ later = policy) := by
  obtain ⟨key, value⟩ := pair
  unfold set at read
  by_cases first : key = "prepare_threshold"
  next =>
    cases found : threshold? value with
    | none => simp [first, found] at read
    | some threshold => exact .inl ⟨first, threshold, rfl, by simpa [first, found] using read.symm⟩
  next =>
    by_cases second : key = "prepared_max"
    next =>
      cases found : capacity? value with
      | none => simp [second, found] at read
      | some capacity =>
        exact .inr (.inl ⟨second, capacity, rfl, by simpa [second, found] using read.symm⟩)
    next => exact .inr (.inr ⟨first, second, by simpa [first, second] using read.symm⟩)

theorem setsThreshold : Parameters.Field set threshold "prepare_threshold" Threshold where
  step read := by
    rcases set_cases read with
      ⟨key, threshold, found, rfl⟩ | ⟨key, capacity, -, rfl⟩ | ⟨other, -, rfl⟩
    next => simpa [key] using (threshold_eq_some_iff _ _).mp found
    next => simp [key]
    next => simp [other]
  unique first second := by
    rw [← threshold_eq_some_iff] at first second
    exact Option.some.inj (first.symm.trans second)

theorem setsCapacity : Parameters.Field set capacity "prepared_max" Capacity where
  step read := by
    rcases set_cases read with
      ⟨key, threshold, -, rfl⟩ | ⟨key, capacity, found, rfl⟩ | ⟨-, other, rfl⟩
    next => simp [key]
    next => simpa [key] using (capacity_eq_some_iff _ _).mp found
    next => simp [other]
  unique first second := by
    rw [← capacity_eq_some_iff] at first second
    exact Option.some.inj (first.symm.trans second)

/-- A string gives a policy if every pair is admitted, and each part of it is then what the last
pair for it means, or the standard one if there is none. Otherwise the first pair that is not
admitted is reported. -/
theorem ofParameters_grammar (text : String) :
    let pairs := Parameters.pairs text
    (∀ list, Parameters.Comprises text list ↔ list = pairs) ∧
    ((∃ policy, ofParameters text = .ok policy) ↔ ∀ pair ∈ pairs, Admitted pair) ∧
    (∀ policy, ofParameters text = .ok policy →
      Parameters.Decides pairs "prepare_threshold" Threshold (some 5) policy.threshold ∧
      Parameters.Decides pairs "prepared_max" Capacity 100 policy.capacity) ∧
    (∀ parameter, ofParameters text = .error parameter ↔
      ∃ before after, pairs = before ++ (parameter.key, parameter.value) :: after ∧
        ¬ Admitted (parameter.key, parameter.value) ∧ ∀ pair ∈ before, Admitted pair) ∧
    (∀ parameter : InvalidParameter, parameter.error =
      .config ("Invalid " ++ parameter.key ++ ": " ++ parameter.value)) := by
  intro pairs
  have judged := Parameters.failure_foldlM failure_set standard pairs
  refine ⟨Parameters.comprises_iff text, ?_, ?_, ?_, fun _ => rfl⟩
  next =>
    rw [ofParameters, ← Parameters.failure_eq_none_iff, judged, List.findSome?_eq_none_iff]
    simp only [refusal_eq_none_iff]
  next =>
    intro policy read
    exact ⟨setsThreshold.decides read, setsCapacity.decides read⟩
  next =>
    intro parameter
    rw [ofParameters, ← Parameters.failure_eq_some_iff, judged, List.findSome?_eq_some_iff]
    simp only [refusal_eq_none_iff, refusal_eq_some_iff]
    constructor
    next =>
      rintro ⟨before, _, after, split, ⟨bad, rfl⟩, admitted⟩
      exact ⟨before, after, split, bad, admitted⟩
    next =>
      rintro ⟨before, after, split, bad, admitted⟩
      exact ⟨before, _, after, split, ⟨bad, rfl⟩, admitted⟩

-- Of the pairs that count, the first that is bad is reported, and the last that is good wins.
example :
    ofParameters "??prepared_max=x&prepare_threshold=3&&prepared_max=+007&prepare_threshold=nOnE" =
      .ok ⟨none, 7⟩ ∧
    ofParameters "prepare_threshold=3&prepared_max==7&prepare_threshold=x" =
      .error ⟨"prepared_max", "=7"⟩ := by
  decide +kernel

end DatabaseClient.Statement.Policy
