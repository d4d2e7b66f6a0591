import DatabaseClient.Proofs.Number.Precision
import DatabaseClient.Proofs.Number.Scientific
import DatabaseClient.Proofs.Parameters
import DatabaseClient.Timeouts

set_option autoImplicit false

namespace DatabaseClient

namespace Duration

def decimal (d : Duration) : String :=
  String.ofList (Nat.toDigits 10 d.seconds ++ '.' :: Number.nineDigits d.subsecond)

example : decimal ⟨1000000, by decide⟩ = "0.001000000" := by decide

theorem subsecond_lt (d : Duration) : d.subsecond < 10 ^ 9 := Nat.mod_lt _ (by norm_num)

theorem isDigit_decimal (d : Duration) :
    ∀ c ∈ Nat.toDigits 10 d.seconds ++ Number.nineDigits d.subsecond, c.isDigit = true := by
  intro c member
  rcases List.mem_append.mp member with second | nano
  next => exact Nat.isDigit_of_mem_toDigits (by decide) (by decide) second
  next => exact Number.isDigit_nineDigits nano

theorem scientific_decimal (d : Duration) :
    Number.scientific? d.decimal = some (.finite false d.nanos (-9)) := by
  have written :
      d.decimal.toList = Nat.toDigits 10 d.seconds ++ '.' :: Number.nineDigits d.subsecond :=
    String.toList_ofList
  have nine : (Number.nineDigits d.subsecond).length = 9 := Number.length_nineDigits d.subsecond_lt
  have value : Nat.ofDigitChars 10 (Nat.toDigits 10 d.seconds ++ Number.nineDigits d.subsecond) 0 =
      d.nanos := by
    rw [Nat.ofDigitChars_append, Nat.ofDigitChars_ten_toDigits,
      Nat.ofDigitChars_eq_ofDigitChars_zero,
      nine, Number.ofDigitChars_nineDigits]
    exact Nat.div_add_mod d.nanos 1000000000
  have digits :
      Number.Digits (Nat.toDigits 10 d.seconds ++ Number.nineDigits d.subsecond) d.nanos :=
    ⟨by simp [Nat.toDigits_ne_nil], d.isDigit_decimal, value⟩
  rw [Number.scientific_eq_some_iff]
  exact ⟨[], _, _, [], 0, by simpa using written, .missing, .point digits, .missing,
    by rw [nine]; rfl⟩

theorem single_decimal (d : Duration) : '&' ∉ d.decimal.toList := by
  have apart : '&' ∉ Nat.toDigits 10 d.seconds ++ Number.nineDigits d.subsecond := by
    intro member
    have digit := d.isDigit_decimal '&' member
    simp at digit
  simpa [decimal] using apart

theorem ofNanos_nanos (d : Duration) : ofNanos? d.nanos = some d := dif_pos d.bounded

end Duration

namespace Timeouts

variable {d : Duration}

theorem ofSeconds_decimal (positive : 0 < d.nanos) (short : d.nanos < 2 ^ 23 * 1000000000) :
    ofSeconds d.decimal = .ok (some d) := by
  have below : (d.nanos : ℚ) < 2 ^ (23 : ℤ) * 10 ^ 9 := by exact_mod_cast short
  have coarse : (10 : ℚ) ^ 9 < 2 ^ (53 - 23 : ℤ) := by norm_num
  obtain ⟨x, read, scaled⟩ : ∃ x, Number.Binary64.ofDecimal? d.nanos (-9) = some x ∧
      x.scaled 1000000000 = d.nanos :=
    Number.Binary64.scaled_ofDecimal (by norm_num) below coarse
  have nonzero : x.significand ≠ 0 := by
    intro zero
    have nothing : x.scaled 1000000000 = 0 := Number.Binary64.scaled_eq_zero zero
    omega
  simp [ofSeconds, d.scientific_decimal, read, nonzero, scaled, d.ofNanos_nanos]

/-- A timeout of less than 2^23 seconds that is written with nine places is read back to the
nanosecond. -/
theorem ofParameters_decimal (positive : 0 < d.nanos) (short : d.nanos < 2 ^ 23 * 1000000000) :
    ofParameters ("connect_timeout=" ++ d.decimal) = .ok ⟨none, some d⟩ ∧
    ofParameters ("wait_timeout=" ++ d.decimal) = .ok ⟨some d, none⟩ := by
  have seconds := ofSeconds_decimal positive short
  have keys : "connect_timeout=" = "connect_timeout" ++ "=" ∧
      "wait_timeout=" = "wait_timeout" ++ "=" := by decide
  rw [keys.1, keys.2, ofParameters, ofParameters]
  rw [Parameters.pairs_single (by decide) (by decide) (by decide) d.single_decimal]
  rw [Parameters.pairs_single (by decide) (by decide) (by decide) d.single_decimal]
  simp [List.foldlM, set, seconds, unlimited, Except.mapError, Except.map]

theorem ofParameters_decimal_longest :
    0 < 8388607999999999 ∧ 8388607999999999 < 2 ^ 23 * 1000000000 ∧
    ofParameters "connect_timeout=8388607.999999999" =
      .ok ⟨none, some ⟨8388607999999999, by decide⟩⟩ ∧
    ofParameters "wait_timeout=8388607.999999999" =
      .ok ⟨some ⟨8388607999999999, by decide⟩, none⟩ := by
  let longest : Duration := ⟨8388607999999999, by decide⟩
  have text : longest.decimal = "8388607.999999999" := by decide
  have read := ofParameters_decimal (d := longest) (by decide) (by decide)
  rw [text] at read
  exact ⟨by decide, by decide, read⟩

end Timeouts

end DatabaseClient
