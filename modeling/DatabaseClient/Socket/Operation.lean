import DatabaseClient.Error
import DatabaseClient.Socket.Readiness

/-!
Operations that never block. An operation is a state machine: it is stepped first without
readiness, and then with the readiness seen for what it asked last.
-/

set_option autoImplicit false

namespace DatabaseClient.Socket

/-- A file descriptor. Negative ones belong to no file. -/
abbrev Descriptor := Int

structure Target where
  descriptor : Descriptor
  interest : Interest
deriving DecidableEq

inductive Step (ρ α : Type) where
  | pending (request : ρ)
  | finished (value : α)
deriving DecidableEq

/-- An operation with states `σ` and requests `ρ`: interests, if its socket is fixed, or targets,
if it may turn to another socket at every step. -/
structure Operation (ρ σ α : Type) where
  step : σ → Option Readiness → σ × Except Error (Step ρ α)

namespace Operation

def scripted (ρ α : Type) : Operation ρ (List (Except Error (Step ρ α))) α where
  step
    | [], _ => ([], .error (.protocol "script exhausted"))
    | next :: rest, _ => (rest, next)

end Operation

def Interest.demand : Interest → String
  | .read => "NeedRead"
  | .write => "NeedWrite"
  | .both => "NeedBoth"

def Target.demand (target : Target) : String :=
  s!"{target.interest.demand}({target.descriptor})"

def Step.display {ρ α : Type} (demand : ρ → String) (value : α → String) : Step ρ α → String
  | .pending r => demand r
  | .finished v => s!"Done({value v})"

end DatabaseClient.Socket
