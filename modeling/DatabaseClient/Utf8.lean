import DatabaseClient.Bytes

set_option autoImplicit false

namespace DatabaseClient.Utf8

inductive Piece where
  | char (c : Char)
  | invalid
deriving DecidableEq

structure Unfinished where
  bits : Nat
  owed : Nat
  low : UInt8
  high : UInt8

def start (b : UInt8) : Piece ⊕ Unfinished :=
  if b < 0x80 then .inl (.char (Char.ofNat b.toNat))
  else if b < 0xC2 then .inl .invalid
  else if b < 0xE0 then .inr ⟨b.toNat - 0xC0, 1, 0x80, 0xBF⟩
  else if b = 0xE0 then .inr ⟨0, 2, 0xA0, 0xBF⟩
  else if b = 0xED then .inr ⟨0xD, 2, 0x80, 0x9F⟩
  else if b < 0xF0 then .inr ⟨b.toNat - 0xE0, 2, 0x80, 0xBF⟩
  else if b = 0xF0 then .inr ⟨0, 3, 0x90, 0xBF⟩
  else if b < 0xF4 then .inr ⟨b.toNat - 0xF0, 3, 0x80, 0xBF⟩
  else if b = 0xF4 then .inr ⟨4, 3, 0x80, 0x8F⟩
  else .inl .invalid

def Unfinished.extend (u : Unfinished) (b : UInt8) : Piece ⊕ Unfinished :=
  let bits := u.bits * 64 + (b.toNat - 0x80)
  if u.owed = 1 then .inl (.char (Char.ofNat bits)) else .inr ⟨bits, u.owed - 1, 0x80, 0xBF⟩

def piecesFrom : Option Unfinished → Bytes → List Piece
  | none, [] => []
  | some _, [] => [.invalid]
  | none, b :: rest =>
    match start b with
    | .inl piece => piece :: piecesFrom none rest
    | .inr u => piecesFrom (some u) rest
  | some u, b :: rest =>
    if u.low ≤ b ∧ b ≤ u.high then
      match u.extend b with
      | .inl piece => piece :: piecesFrom none rest
      | .inr u => piecesFrom (some u) rest
    else
      -- The byte that breaks a character may start the next one.
      .invalid :: match start b with
        | .inl piece => piece :: piecesFrom none rest
        | .inr u => piecesFrom (some u) rest

def pieces (bytes : Bytes) : List Piece :=
  piecesFrom none bytes

def Piece.char? : Piece → Option Char
  | .char c => some c
  | .invalid => none

def decode? (bytes : Bytes) : Option String :=
  ((pieces bytes).mapM Piece.char?).map String.ofList

def lossy (bytes : Bytes) : String :=
  String.ofList ((pieces bytes).map fun piece => piece.char?.getD '\uFFFD')

end DatabaseClient.Utf8
