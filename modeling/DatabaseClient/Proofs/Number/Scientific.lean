import Mathlib.Algebra.Order.Field.Rat
import Mathlib.Tactic.NormNum
import DatabaseClient.Proofs.Number.Reading

set_option autoImplicit false

namespace DatabaseClient.Number

inductive Sign : List Char → Bool → Prop where
  | missing : Sign [] false
  | plus : Sign ['+'] false
  | minus : Sign ['-'] true

def signed {α : Type} [Neg α] (negative : Bool) (x : α) : α := if negative then -x else x

def Digits (text : List Char) (n : Nat) : Prop :=
  text ≠ [] ∧ (∀ c ∈ text, c.isDigit = true) ∧ Nat.ofDigitChars 10 text 0 = n

/-- The digits of a number and how many of them are places of its fraction. The point may be
missing, and so may the digits on one side of it. -/
inductive Fraction : List Char → Nat → Nat → Prop where
  | whole {digits : List Char} {n : Nat} : Digits digits n → Fraction digits n 0
  | point {whole fraction : List Char} {n : Nat} : Digits (whole ++ fraction) n →
      Fraction (whole ++ '.' :: fraction) n fraction.length

inductive Power : List Char → ℤ → Prop where
  | missing : Power [] 0
  | written {letter : Char} {sign digits : List Char} {negative : Bool} {n : Nat} :
      letter = 'e' ∨ letter = 'E' → Sign sign negative → Digits digits n →
      Power (letter :: (sign ++ digits)) (signed negative n)

/-- The text is a number in decimal and stands for `q`. -/
def Denotes (text : String) (q : ℚ) : Prop :=
  ∃ sign negative fraction n places power e, text.toList = sign ++ (fraction ++ power) ∧
    Sign sign negative ∧ Fraction fraction n places ∧ Power power e ∧
    q = signed negative ((n : ℚ) / 10 ^ places * 10 ^ e)

theorem abs_signed (negative : Bool) {q : ℚ} (nonneg : 0 ≤ q) : |signed negative q| = q := by
  cases negative <;> simp [signed, abs_of_nonneg nonneg]

theorem digits_iff {text : List Char} {n : Nat} :
    Digits text n ↔ isDigits text = true ∧ digitsValue text = n := by
  rw [isDigits_iff, digitsValue_eq, Digits, and_assoc]

theorem unmarked {first : Char} (begins : first.isDigit = true ∨ first = '.') :
    first ≠ '-' ∧ first ≠ '+' := by
  constructor <;> rintro rfl <;> simp at begins

theorem Digits.head {digits : List Char} {n : Nat} (number : Digits digits n) :
    ∃ first rest, digits = first :: rest ∧ first.isDigit = true := by
  obtain ⟨first, rest, rfl⟩ := List.exists_cons_of_ne_nil number.1
  exact ⟨first, rest, rfl, number.2.1 first (by simp)⟩

theorem exponent_signed {sign digits : List Char} {negative : Bool} {n : Nat}
    (mark : Sign sign negative) (number : Digits digits n) :
    exponent? (sign ++ digits) = some (signed negative (n : ℤ)) := by
  obtain ⟨only, rfl⟩ := digits_iff.mp number
  cases mark with
  | missing =>
    obtain ⟨first, rest, rfl, digit⟩ := number.head
    obtain ⟨minus, plus⟩ := unmarked (.inl digit)
    simp [exponent?, minus, plus, signed, only]
  | plus => simp [exponent?, signed, only]
  | minus => simp [exponent?, signed, only]

theorem signed_of_exponent {text : List Char} {e : ℤ} (read : exponent? text = some e) :
    ∃ sign negative digits n, text = sign ++ digits ∧ Sign sign negative ∧ Digits digits n ∧
      e = signed negative (n : ℤ) := by
  unfold exponent? at read
  split at read <;> simp only [Option.ite_none_right_eq_some, Option.some.injEq] at read
  next digits =>
    exact ⟨['-'], true, digits, _, rfl, .minus, digits_iff.mpr ⟨read.1, rfl⟩, read.2.symm⟩
  next digits =>
    exact ⟨['+'], false, digits, _, rfl, .plus, digits_iff.mpr ⟨read.1, rfl⟩, read.2.symm⟩
  next => exact ⟨[], false, text, _, rfl, .missing, digits_iff.mpr ⟨read.1, rfl⟩, read.2.symm⟩

def power? : List Char → Option ℤ
  | [] => some 0
  | c :: more => if c = 'e' ∨ c = 'E' then exponent? more else none

theorem power_iff {text : List Char} {e : ℤ} : Power text e ↔ power? text = some e := by
  constructor
  next =>
    intro power
    cases power with
    | missing => rfl
    | written letter mark number => simp [power?, letter, exponent_signed mark number]
  next =>
    intro read
    cases text with
    | nil =>
      obtain rfl := Option.some.inj read
      exact .missing
    | cons c more =>
      simp only [power?, Option.ite_none_right_eq_some] at read
      obtain ⟨sign, negative, digits, n, rfl, mark, number, rfl⟩ := signed_of_exponent read.2
      exact .written read.1 mark number

theorem Power.stop {text : List Char} {e : ℤ} (power : Power text e) :
    ∀ c ∈ text.head?, c.isDigit = false ∧ c ≠ '.' := by
  cases power with
  | missing => simp
  | written letter => rcases letter with rfl | rfl <;> simp

theorem point_cases (text : List Char) :
    (∃ whole rest, text = whole ++ rest ∧ (∀ c ∈ whole, c.isDigit = true) ∧
      ∀ c ∈ rest.head?, c.isDigit = false ∧ c ≠ '.') ∨
    ∃ whole fraction rest, text = whole ++ '.' :: (fraction ++ rest) ∧
      (∀ c ∈ whole ++ fraction, c.isDigit = true) ∧ ∀ c ∈ rest.head?, c.isDigit = false := by
  have run (text : List Char) : ∃ digits rest, text = digits ++ rest ∧
      (∀ c ∈ digits, c.isDigit = true) ∧ ∀ c ∈ rest.head?, c.isDigit = false := by
    refine ⟨text.takeWhile Char.isDigit, text.dropWhile Char.isDigit,
      List.takeWhile_append_dropWhile.symm, fun c member => List.mem_takeWhile_imp member, ?_⟩
    intro c first
    have stopped := List.head?_dropWhile_not Char.isDigit text
    rw [Option.mem_def.mp first] at stopped
    simpa using stopped
  obtain ⟨whole, rest, rfl, only, stop⟩ := run text
  by_cases point : rest.head? = some '.'
  next =>
    obtain ⟨more, rfl⟩ := List.head?_eq_some_iff.mp point
    obtain ⟨fraction, rest, rfl, digits, stop⟩ := run more
    refine .inr ⟨whole, fraction, rest, rfl, ?_, stop⟩
    simpa [or_imp, forall_and] using ⟨only, digits⟩
  next =>
    refine .inl ⟨whole, rest, rfl, only, fun c first => ⟨stop c first, ?_⟩⟩
    rintro rfl
    exact point first

section Finite

variable {whole fraction rest : List Char} (negative : Bool)

theorem finite_whole (only : ∀ c ∈ whole, c.isDigit = true)
    (stop : ∀ c ∈ rest.head?, c.isDigit = false ∧ c ≠ '.') :
    finite? negative (whole ++ rest) =
      if whole = [] then none
      else (power? rest).map fun e => .finite negative (digitsValue whole) e := by
  obtain ⟨digits, behind⟩ := takeWhile_digits only fun c first => (stop c first).1
  rw [finite?, digits, behind]
  cases rest with
  | nil => simp [power?]
  | cons c more =>
    have other : c ≠ '.' := (stop c rfl).2
    by_cases letter : c = 'e' ∨ c = 'E' <;> simp [power?, other, letter]

theorem finite_point (only : ∀ c ∈ whole ++ fraction, c.isDigit = true)
    (stop : ∀ c ∈ rest.head?, c.isDigit = false) :
    finite? negative (whole ++ '.' :: (fraction ++ rest)) =
      if whole ++ fraction = [] then none
      else (power? rest).map fun e =>
        .finite negative (digitsValue (whole ++ fraction)) (e - fraction.length) := by
  have before : (whole ++ '.' :: (fraction ++ rest)).takeWhile Char.isDigit = whole ∧
      (whole ++ '.' :: (fraction ++ rest)).dropWhile Char.isDigit = '.' :: (fraction ++ rest) :=
    takeWhile_digits (fun c member => only c (List.mem_append_left _ member)) (by simp)
  obtain ⟨digits, behind⟩ := takeWhile_digits
    (fun c member => only c (List.mem_append_right _ member)) stop
  rw [finite?, before.1, before.2]
  simp only [digits, behind]
  cases rest with
  | nil => simp [power?]
  | cons c more => by_cases letter : c = 'e' ∨ c = 'E' <;> simp [power?, letter]

theorem finite_eq_some_iff {text : List Char} {number : Scientific} :
    finite? negative text = some number ↔
      ∃ fraction n places power e, text = fraction ++ power ∧ Fraction fraction n places ∧
        Power power e ∧ number = .finite negative n (e - places) := by
  constructor
  next =>
    intro read
    rcases point_cases text with
      ⟨whole, rest, rfl, only, stop⟩ | ⟨whole, fraction, rest, rfl, only, stop⟩
    next =>
      rw [finite_whole negative only stop] at read
      split at read
      next => simp at read
      next some =>
        obtain ⟨e, power, rfl⟩ := Option.map_eq_some_iff.mp read
        exact ⟨whole, _, 0, rest, e, rfl, .whole ⟨some, only, (digitsValue_eq whole).symm⟩,
          power_iff.mpr power, by simp⟩
    next =>
      rw [finite_point negative only stop] at read
      split at read
      next => simp at read
      next some =>
        obtain ⟨e, power, rfl⟩ := Option.map_eq_some_iff.mp read
        exact ⟨whole ++ '.' :: fraction, _, fraction.length, rest, e, by simp,
          .point ⟨some, only, (digitsValue_eq _).symm⟩, power_iff.mpr power, rfl⟩
  next =>
    rintro ⟨fraction, n, places, power, e, rfl, number, behind, rfl⟩
    cases number with
    | whole digits =>
      obtain ⟨some, only, rfl⟩ := digits
      rw [finite_whole negative only behind.stop, if_neg some, power_iff.mp behind, digitsValue_eq]
      simp
    | point digits =>
      obtain ⟨some, only, rfl⟩ := digits
      rw [List.append_assoc, List.cons_append,
        finite_point negative only fun c first => (behind.stop c first).1, if_neg some,
        power_iff.mp behind, digitsValue_eq]
      rfl

end Finite

theorem Fraction.head {text : List Char} {n places : Nat} (number : Fraction text n places) :
    ∃ first rest, text = first :: rest ∧ (first.isDigit = true ∨ first = '.') := by
  cases number with
  | whole digits =>
    obtain ⟨first, rest, rfl, digit⟩ := digits.head
    exact ⟨first, rest, rfl, .inl digit⟩
  | @point whole fraction n digits =>
    cases whole with
    | nil => exact ⟨'.', fraction, rfl, .inr rfl⟩
    | cons first rest => exact ⟨first, _, rfl, .inl (digits.2.1 first (by simp))⟩

theorem Fraction.unsigned {text : List Char} {n places : Nat} (number : Fraction text n places)
    (negative : Bool) (power : List Char) :
    unsigned? negative (text ++ power) = finite? negative (text ++ power) := by
  obtain ⟨first, rest, rfl, begins⟩ := number.head
  have notInfinite : first.toLower ≠ 'i' := by
    rw [Ne, toLower_eq_iff (by decide)]
    rintro (rfl | rfl) <;> simp at begins
  have notNaN : first.toLower ≠ 'n' := by
    rw [Ne, toLower_eq_iff (by decide)]
    rintro (rfl | rfl) <;> simp at begins
  simp [unsigned?, notInfinite, notNaN]

theorem unsigned_eq_some_iff {sign negative : Bool} {text : List Char} {n : Nat} {exponent : ℤ} :
    unsigned? sign text = some (.finite negative n exponent) ↔
      ∃ fraction places power e, text = fraction ++ power ∧ Fraction fraction n places ∧
        Power power e ∧ negative = sign ∧ exponent = e - places := by
  constructor
  next =>
    intro read
    have finite : finite? sign text = some (.finite negative n exponent) := by
      unfold unsigned? at read
      dsimp only at read
      split_ifs at read
      next => simp at read
      next => simp at read
      next => exact read
    obtain ⟨fraction, n, places, power, e, rfl, number, behind, same⟩ :=
      (finite_eq_some_iff sign).mp finite
    obtain ⟨rfl, rfl, rfl⟩ := Scientific.finite.inj same
    exact ⟨fraction, places, power, e, rfl, number, behind, rfl, rfl⟩
  next =>
    rintro ⟨fraction, places, power, e, rfl, number, behind, rfl, rfl⟩
    rw [number.unsigned, finite_eq_some_iff]
    exact ⟨fraction, n, places, power, e, rfl, number, behind, rfl⟩

theorem scientific_eq_some_iff {text : String} {negative : Bool} {n : Nat} {exponent : ℤ} :
    scientific? text = some (.finite negative n exponent) ↔
      ∃ sign fraction places power e, text.toList = sign ++ (fraction ++ power) ∧
        Sign sign negative ∧ Fraction fraction n places ∧ Power power e ∧
        exponent = e - places := by
  unfold scientific?
  constructor
  next =>
    intro read
    split at read <;>
      obtain ⟨fraction, places, power, e, body, number, behind, rfl, rfl⟩ :=
        unsigned_eq_some_iff.mp read
    next rest written =>
      exact ⟨['-'], fraction, places, power, e, by simp [written, body], .minus, number, behind,
        rfl⟩
    next rest written =>
      exact ⟨['+'], fraction, places, power, e, by simp [written, body], .plus, number, behind, rfl⟩
    next => exact ⟨[], fraction, places, power, e, body, .missing, number, behind, rfl⟩
  next =>
    rintro ⟨sign, fraction, places, power, e, written, mark, number, behind, rfl⟩
    have body : unsigned? negative (fraction ++ power) = some (.finite negative n (e - places)) :=
      unsigned_eq_some_iff.mpr ⟨fraction, places, power, e, rfl, number, behind, rfl, rfl⟩
    rw [written]
    cases mark with
    | missing =>
      obtain ⟨first, rest, rfl, begins⟩ := number.head
      obtain ⟨minus, plus⟩ := unmarked begins
      simpa [minus, plus] using body
    | plus => exact body
    | minus => exact body

theorem denotes_iff {text : String} {q : ℚ} :
    Denotes text q ↔ ∃ negative n exponent,
      scientific? text = some (.finite negative n exponent) ∧
      q = signed negative ((n : ℚ) * 10 ^ exponent) := by
  have shifted (n places : Nat) (e : ℤ) :
      (n : ℚ) / 10 ^ places * 10 ^ e = n * 10 ^ (e - places) := by
    rw [zpow_sub₀ (by norm_num), zpow_natCast, div_mul_eq_mul_div, mul_div_assoc]
  constructor
  next =>
    rintro ⟨sign, negative, fraction, n, places, power, e, written, mark, number, behind, rfl⟩
    refine ⟨negative, n, e - places, scientific_eq_some_iff.mpr ?_, by rw [shifted]⟩
    exact ⟨sign, fraction, places, power, e, written, mark, number, behind, rfl⟩
  next =>
    rintro ⟨negative, n, exponent, read, rfl⟩
    obtain ⟨sign, fraction, places, power, e, written, mark, number, behind, rfl⟩ :=
      scientific_eq_some_iff.mp read
    rw [← shifted]
    exact ⟨sign, negative, fraction, n, places, power, e, written, mark, number, behind, rfl⟩

end DatabaseClient.Number
