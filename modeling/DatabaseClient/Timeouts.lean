import DatabaseClient.Duration
import DatabaseClient.Number.Reading
import DatabaseClient.Number.Binary64
import DatabaseClient.Parameters

set_option autoImplicit false

namespace DatabaseClient

structure Timeouts where
  -- How long one poll may take. Without it a poll lasts until something happens.
  polling : Option Duration
  -- How long each wait may take while the connection is made.
  connecting : Option Duration
deriving DecidableEq

namespace Timeouts

def unlimited : Timeouts := ⟨none, none⟩

inductive Fault where
  | unreadable
  | tooLong
deriving DecidableEq

def ofSeconds (text : String) : Except Fault (Option Duration) :=
  match Number.scientific? text with
  | some (.finite negative digits exponent) =>
    match Number.Binary64.ofDecimal? digits exponent with
    | none => .error .unreadable
    | some x =>
      if negative ∨ x.significand = 0 then .ok none
      else match Duration.ofNanos? (x.scaled 1000000000) with
        | some d => .ok (some d)
        | none => .error .tooLong
  | _ => .error .unreadable

inductive Refusal where
  | invalid (parameter : InvalidParameter)
  -- Ends the program.
  | tooLong
deriving DecidableEq

def Fault.refusal (key value : String) : Fault → Refusal
  | .unreadable => .invalid ⟨key, value⟩
  | .tooLong => .tooLong

def Refusal.message : Refusal → String
  | .invalid parameter => parameter.error.message
  | .tooLong => "cannot convert float seconds to Duration: value is either too big or NaN"

def set (timeouts : Timeouts) : String × String → Except Refusal Timeouts
  | (key, value) =>
    let limit := (ofSeconds value).mapError (Fault.refusal key value)
    if key = "wait_timeout" then limit.map fun d => { timeouts with polling := d }
    else if key = "connect_timeout" then limit.map fun d => { timeouts with connecting := d }
    else .ok timeouts

def ofParameters (text : String) : Except Refusal Timeouts :=
  (Parameters.pairs text).foldlM set unlimited

end Timeouts

end DatabaseClient
