set_option autoImplicit false

namespace DatabaseClient.Number

def digitsValue (digits : List Char) : Nat :=
  digits.foldl (fun n c => n * 10 + (c.toNat - '0'.toNat)) 0

def isDigits (text : List Char) : Bool :=
  !text.isEmpty && text.all Char.isDigit

def dropPlus : List Char → List Char
  | '+' :: rest => rest
  | text => text

def whole? (bound : Nat) (text : String) : Option Nat :=
  let digits := dropPlus text.toList
  if isDigits digits ∧ digitsValue digits < bound then some (digitsValue digits) else none

inductive Scientific where
  | notANumber
  | infinite (negative : Bool)
  -- The number `digits * 10 ^ exponent`, or its negative.
  | finite (negative : Bool) (digits : Nat) (exponent : Int)
deriving DecidableEq

def exponent? : List Char → Option Int
  | '-' :: digits => if isDigits digits then some (-(digitsValue digits : Int)) else none
  | '+' :: digits => if isDigits digits then some (digitsValue digits) else none
  | digits => if isDigits digits then some (digitsValue digits) else none

def finite? (negative : Bool) (text : List Char) : Option Scientific :=
  let whole := text.takeWhile Char.isDigit
  let tail := text.dropWhile Char.isDigit
  let (fraction, tail) := match tail with
    | '.' :: more => (more.takeWhile Char.isDigit, more.dropWhile Char.isDigit)
    | _ => ([], tail)
  let number (exponent : Int) :=
    Scientific.finite negative (digitsValue (whole ++ fraction)) (exponent - fraction.length)
  if whole.isEmpty && fraction.isEmpty then none
  else match tail with
    | [] => some (number 0)
    | c :: more => if c = 'e' ∨ c = 'E' then (exponent? more).map number else none

def unsigned? (negative : Bool) (text : List Char) : Option Scientific :=
  let word := text.map Char.toLower
  if word = "inf".toList ∨ word = "infinity".toList then some (.infinite negative)
  else if word = "nan".toList then some .notANumber
  else finite? negative text

def scientific? (text : String) : Option Scientific :=
  match text.toList with
  | '-' :: rest => unsigned? true rest
  | '+' :: rest => unsigned? false rest
  | rest => unsigned? false rest

end DatabaseClient.Number
