import DatabaseClient.Socket.Report

set_option autoImplicit false

namespace DatabaseClient.Socket.Reactor

inductive Cause where
  | timeout
  | cancellation
deriving DecidableEq

def Cause.outcome {α : Type} : Cause → Outcome α
  | .timeout => .failed .timeout
  | .cancellation => .cancelled

/-- When a wait that began at `start` is given up, in nanoseconds: at its timeout, or when the run
is dropped, so many milliseconds after its own start, if that is earlier. A timeout whose end the
clock does not reach is none. -/
def limit? (timeout : Option Duration) (cancel : Option Nat) (start : Nat) :
    Option (Nat × Cause) :=
  match timeout.filter (Kernel.reaches start), cancel with
  | none, none => none
  | none, some ms => some (1000000 * ms, .cancellation)
  | some d, none => some (1000 * start + d.nanos, .timeout)
  | some d, some ms =>
    if 1000 * start + d.nanos ≤ 1000000 * ms then some (1000 * start + d.nanos, .timeout)
    else some (1000000 * ms, .cancellation)

def satisfied (interest : Interest) : Signal → Readiness
  | .event mask => mask.byReactor.inter interest.readiness
  | .failure _ => .none

def abandon {α : Type} (target : Target) (cause : Cause) (kernel : Kernel) : Report α :=
  let remove := Control.remove target.descriptor
  .attempted kernel remove (.ending cause.outcome (kernel.control remove))

variable {ρ σ α : Type} (operation : Operation ρ σ α) (target : ρ → Target)

def wait (timeout : Option Duration) (cancel : Option Nat) (state : σ) (request : ρ) (start : Nat)
    (kernel : Kernel) : Report α :=
  match _ : kernel.arrivals with
  | [] =>
    match limit? timeout cancel start with
    | none => .stuck kernel
    | some (_, cause) => abandon (target request) cause kernel
  | first :: rest =>
    let later := kernel.deliver first rest
    match (limit? timeout cancel start).filter (·.1 ≤ 1000 * later.clock) with
    | some (_, cause) => abandon (target request) cause kernel
    | none =>
      let ready := satisfied (target request).interest first.signal
      if ready.isEmpty then wait timeout cancel state request start later
      else
        let remove := Control.remove (target request).descriptor
        let cleared := later.control remove
        .attempted later remove <|
          operation.resume state (some ready) cleared fun state request =>
            let add := Control.add (target request).descriptor ⟨(target request).interest, false⟩
            .called cleared add <|
              wait timeout cancel state request cleared.clock (cleared.control add)
termination_by kernel.arrivals.length
decreasing_by all_goals simp [Kernel.control, Kernel.deliver, ‹kernel.arrivals = _›]

def start (timeout : Option Duration) (cancel : Option Nat) (state : σ) (kernel : Kernel) :
    Report α :=
  operation.resume state none kernel fun state request =>
    let add := Control.add (target request).descriptor ⟨(target request).interest, false⟩
    .called kernel add <|
      wait operation target timeout cancel state request kernel.clock (kernel.control add)

def run (operation : Operation Interest σ α) (descriptor : Descriptor)
    (timeout : Option Duration) (cancel : Option Nat) (state : σ) (kernel : Kernel) : Report α :=
  start operation (fun interest => ⟨descriptor, interest⟩) timeout cancel state kernel

def connect (operation : Operation Target σ α) (timeout : Option Duration) (cancel : Option Nat)
    (state : σ) (kernel : Kernel) : Report α :=
  start operation id (timeout.filter (!·.isZero)) cancel state kernel

end DatabaseClient.Socket.Reactor
