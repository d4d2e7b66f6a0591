import Mathlib.Algebra.Group.Nat.Defs
import Mathlib.Data.List.TakeWhile
import DatabaseClient.Number.Reading

set_option autoImplicit false

namespace DatabaseClient.Number

theorem toNat_toUpper {letter : Char} (small : letter.isLower = true) :
    letter.toUpper.toNat = letter.toNat - 32 ∧ 97 ≤ letter.toNat ∧ letter.toNat ≤ 122 := by
  have range : 97 ≤ letter.toNat ∧ letter.toNat ≤ 122 := by
    change (decide (letter.val ≥ 'a'.val) && decide (letter.val ≤ 'z'.val)) = true at small
    simpa [UInt32.le_iff_toNat_le] using small
  refine ⟨?_, range⟩
  unfold Char.toUpper
  split
  next =>
    rw [← Char.toNat_val, UInt32.toNat_add, Char.toNat_val]
    change (letter.toNat + 4294967264) % 4294967296 = _
    omega
  next other =>
    simp [UInt32.le_iff_toNat_le] at other
    omega

theorem toNat_toLower (c : Char) :
    c.toLower.toNat = if 65 ≤ c.toNat ∧ c.toNat ≤ 90 then c.toNat + 32 else c.toNat := by
  have capital : (c.val ≥ 'A'.val ∧ c.val ≤ 'Z'.val) ↔ 65 ≤ c.toNat ∧ c.toNat ≤ 90 := by
    simp [UInt32.le_iff_toNat_le]
  unfold Char.toLower
  split
  next large =>
    rw [capital] at large
    rw [if_pos large, ← Char.toNat_val, UInt32.toNat_add, Char.toNat_val]
    change (c.toNat + 32) % 4294967296 = _
    omega
  next other =>
    rw [capital] at other
    rw [if_neg other]

theorem toLower_eq_iff {c letter : Char} (small : letter.isLower = true) :
    c.toLower = letter ↔ c = letter ∨ c = letter.toUpper := by
  obtain ⟨upper, low, high⟩ := toNat_toUpper small
  simp only [← Char.toNat_inj, toNat_toLower, upper]
  split <;> omega

theorem digitsValue_eq (digits : List Char) :
    digitsValue digits = Nat.ofDigitChars 10 digits 0 := by
  rw [Nat.ofDigitChars_eq_foldl, digitsValue]
  simp only [Nat.mul_comm]

def Whole (text : String) (n : Nat) : Prop :=
  ∃ digits, (text.toList = digits ∨ text.toList = '+' :: digits) ∧ digits ≠ [] ∧
    (∀ c ∈ digits, c.isDigit = true) ∧ Nat.ofDigitChars 10 digits 0 = n

theorem isDigits_iff (digits : List Char) :
    isDigits digits = true ↔ digits ≠ [] ∧ ∀ c ∈ digits, c.isDigit = true := by
  simp [isDigits]

theorem whole_iff (text : String) (n : Nat) :
    Whole text n ↔ isDigits (dropPlus text.toList) = true ∧
      digitsValue (dropPlus text.toList) = n := by
  rw [isDigits_iff, digitsValue_eq]
  constructor
  next =>
    rintro ⟨digits, same | same, some, only, value⟩
    next =>
      have bare : dropPlus text.toList = digits := by
        rw [same, dropPlus]
        intro rest signed
        have sign := only '+' (by simp [signed])
        simp at sign
      rw [bare]
      exact ⟨⟨some, only⟩, value⟩
    next =>
      rw [same]
      exact ⟨⟨some, only⟩, value⟩
  next =>
    rintro ⟨⟨some, only⟩, value⟩
    refine ⟨dropPlus text.toList, ?_, some, only, value⟩
    cases text.toList with
    | nil => exact .inl rfl
    | cons c rest =>
      by_cases sign : c = '+'
      next => exact .inr (by rw [sign, dropPlus])
      next =>
        refine .inl ?_
        rw [dropPlus]
        simpa using sign

theorem whole_eq_some_iff {bound n : Nat} {text : String} :
    whole? bound text = some n ↔ Whole text n ∧ n < bound := by
  rw [whole_iff]
  simp only [whole?]
  split
  next admitted =>
    constructor
    next =>
      intro same
      cases same
      exact ⟨⟨admitted.1, rfl⟩, admitted.2⟩
    next =>
      rintro ⟨⟨-, rfl⟩, -⟩
      rfl
  next refused =>
    refine iff_of_false (by simp) ?_
    rintro ⟨⟨digits, rfl⟩, below⟩
    exact refused ⟨digits, below⟩

theorem takeWhile_digits {digits rest : List Char} (only : ∀ c ∈ digits, c.isDigit = true)
    (stop : ∀ c ∈ rest.head?, c.isDigit = false) :
    (digits ++ rest).takeWhile Char.isDigit = digits ∧
      (digits ++ rest).dropWhile Char.isDigit = rest := by
  rw [List.takeWhile_append_of_pos only, List.dropWhile_append_of_pos only]
  cases rest with
  | nil => simp
  | cons c rest => simp [stop c rfl]

def nineDigits (n : Nat) : List Char := (Nat.toDigits 10 n).leftpad 9 '0'

theorem length_nineDigits {n : Nat} (small : n < 10 ^ 9) : (nineDigits n).length = 9 := by
  have few := (Nat.length_toDigits_le_iff (b := 10) (k := 9) (by decide) (by decide)).mpr small
  simp [nineDigits, List.leftpad]
  omega

theorem isDigit_nineDigits {n : Nat} {c : Char} (member : c ∈ nineDigits n) : c.isDigit = true := by
  rcases List.mem_append.mp member with zero | digit
  next => rw [List.eq_of_mem_replicate zero]; rfl
  next => exact Nat.isDigit_of_mem_toDigits (by decide) (by decide) digit

theorem ofDigitChars_nineDigits (n : Nat) : Nat.ofDigitChars 10 (nineDigits n) 0 = n := by
  simp [nineDigits, List.leftpad, Nat.ofDigitChars_append, Nat.ofDigitChars_ten_toDigits]

end DatabaseClient.Number
