import Mathlib.Logic.Function.Basic
import DatabaseClient.Proofs.Ascii
import DatabaseClient.Statement.Cache

set_option autoImplicit false

namespace DatabaseClient

namespace Bytes

theorem ascii_repr (n : Nat) : ∀ c ∈ n.repr.toList, c.toNat < 128 := by
  intro c member
  rw [Nat.toList_repr] at member
  have digit := Nat.isDigit_of_mem_toDigits (by decide) (by decide) member
  exact Nat.lt_of_le_of_lt (Char.isDigit_iff_toNat.mp digit).2 (by decide)

theorem decimal_injective : Function.Injective decimal := by
  intro n m same
  have digits : Nat.toDigits 10 n = Nat.toDigits 10 m := by
    rw [← Nat.toList_repr, ofAscii_inj (ascii_repr n) (ascii_repr m) same, Nat.toList_repr]
  calc
    n = Nat.ofDigitChars 10 (Nat.toDigits 10 n) 0 := Nat.ofDigitChars_ten_toDigits.symm
    _ = Nat.ofDigitChars 10 (Nat.toDigits 10 m) 0 := by rw [digits]
    _ = m := Nat.ofDigitChars_ten_toDigits

end Bytes

namespace Statement.Cache

theorem statementName_injective : Function.Injective statementName := by
  intro n m same
  exact Bytes.decimal_injective (List.append_cancel_left same)

end Statement.Cache

end DatabaseClient
