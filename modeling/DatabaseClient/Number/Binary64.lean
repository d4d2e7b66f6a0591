/-!
Rounding to nearest with ties to even: quotients to whole numbers, and non-negative rationals to
the double precision numbers, which are the multiples of a power of two with at most 53
significant bits and an exponent between -1074 and 971.
-/

set_option autoImplicit false

namespace DatabaseClient.Number

def roundQuotient (num den : Nat) : Nat :=
  let floor := num / den
  let rest := num % den
  if 2 * rest < den then floor
  else if den < 2 * rest then floor + 1
  else floor + floor % 2

/-- The number `significand * 2 ^ exponent`. -/
structure Binary64 where
  significand : Nat
  exponent : Int
deriving DecidableEq

namespace Binary64

def zero : Binary64 := ⟨0, 0⟩

/-- The greatest `e` with `2 ^ e ≤ num / den`, for positive `num` and `den`. -/
def floorLog (num den : Nat) : Int :=
  let e : Int := (num.log2 : Int) - den.log2
  if den <<< e.toNat ≤ num <<< (-e).toNat then e else e - 1

def lastBit (num den : Nat) : Int :=
  max (-1074) (floorLog num den - 52)

def nearest? (num den : Nat) : Option Binary64 :=
  if num = 0 then some zero
  else
    let e := lastBit num den
    let m := roundQuotient (num <<< (-e).toNat) (den <<< e.toNat)
    if 971 < e ∨ (e = 971 ∧ m = 1 <<< 53) then none else some ⟨m, e⟩

/-- The double nearest to `digits * 10 ^ exponent`. Numbers that are far too large or far too
small are told by their exponent, so that no power of that size is computed. -/
def ofDecimal? (digits : Nat) (exponent : Int) : Option Binary64 :=
  if digits = 0 then some zero
  else if 309 ≤ exponent then none
  else if exponent + (digits.log2 + 1) ≤ -324 then some zero
  else nearest? (digits * Nat.pow 10 exponent.toNat) (Nat.pow 10 (-exponent).toNat)

def scaled (x : Binary64) (scale : Nat) : Nat :=
  roundQuotient ((x.significand * scale) <<< x.exponent.toNat) (1 <<< (-x.exponent).toNat)

end Binary64

end DatabaseClient.Number
