import DatabaseClient.Number.Reading
import DatabaseClient.Parameters

set_option autoImplicit false

namespace DatabaseClient.Statement

structure Policy where
  -- How often a query runs before it is prepared. Without it nothing is ever prepared.
  threshold : Option Nat
  -- How many queries are kept track of.
  capacity : Nat
deriving DecidableEq

namespace Policy

def standard : Policy := ⟨some 5, 100⟩

def disabled : Policy := { standard with threshold := none }

def threshold? (value : String) : Option (Option Nat) :=
  if value.toList.map Char.toLower = "none".toList then some none
  else (Number.whole? UInt32.size value).map some

def capacity? (value : String) : Option Nat :=
  Number.whole? UInt64.size value

def set (policy : Policy) : String × String → Except InvalidParameter Policy
  | (key, value) =>
    if key = "prepare_threshold" then
      match threshold? value with
      | some threshold => .ok { policy with threshold }
      | none => .error ⟨key, value⟩
    else if key = "prepared_max" then
      match capacity? value with
      | some capacity => .ok { policy with capacity }
      | none => .error ⟨key, value⟩
    else .ok policy

def ofParameters (text : String) : Except InvalidParameter Policy :=
  (Parameters.pairs text).foldlM set standard

end Policy

end DatabaseClient.Statement
