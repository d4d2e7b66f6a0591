import DatabaseClient.Socket.Report

set_option autoImplicit false

namespace DatabaseClient.Socket.Multiplexed

inductive Lapse where
  | retry
  | timeout
deriving DecidableEq

def limitAt (timeout : Option Duration) (start now : Nat) : Option Nat :=
  timeout.map fun d => pollLimit (d.nanos - 1000 * (now - start))

def badStatus : Error :=
  .internal ("bad poll status: Event \x7b token: Token(0), readable: false, writable: false, " ++
    "error: false, read_closed: false, write_closed: false, priority: false, aio: false, " ++
    "lio: false \x7d")

variable {ρ σ α : Type} (operation : Operation ρ σ α) (target : ρ → Target)

/-- Polls the registered target, whose time began at `start`, until it is ready; then removes it,
steps and registers the next one. -/
def wait (lapse : Lapse) (timeout : Option Duration) (state : σ) (request : ρ) (start : Nat)
    (kernel : Kernel) : Report α :=
  let limit := limitAt timeout start kernel.clock
  let remove := Control.remove (target request).descriptor
  if timeout.all (Kernel.reaches start) then
    match _ : kernel.poll limit with
    | none => .stuck kernel
    | some (none, later) =>
      .log (.poll limit none) <|
        match lapse with
        -- The poll is made again with all of its time.
        | .retry => wait lapse timeout state request later.clock later
        | .timeout => .called later remove (.ending (.failed .timeout) (later.control remove))
    | some (some (.failure errno), later) =>
      .log (.poll limit (some (.failure errno))) <|
        -- After an interruption it goes on with the time left.
        if errno = Errno.interrupted then wait lapse timeout state request start later
        else .osFailure errno later
    | some (some (.event mask), later) =>
      .log (.poll limit (some (.event mask))) <|
        let ready := mask.byFlag
        let cleared := later.control remove
        if ready.isEmpty then .ending (.failed badStatus) later
        else .called later remove <|
          if ready.meets (target request).interest then
            operation.resume state (some ready) cleared fun state request =>
              let add := Control.add (target request).descriptor ⟨(target request).interest, false⟩
              .called cleared add <|
                wait lapse timeout state request cleared.clock (cleared.control add)
          else .ending (.aborted (.mismatch ready (target request).interest)) cleared
  else .ending (.aborted .deadlineOverflow) kernel
termination_by kernel.supply
decreasing_by all_goals simp [Kernel.supply_poll ‹kernel.poll _ = _›]

def start (lapse : Lapse) (timeout : Option Duration) (state : σ) (kernel : Kernel) : Report α :=
  operation.resume state none kernel fun state request =>
    let add := Control.add (target request).descriptor ⟨(target request).interest, false⟩
    .created kernel <| .called kernel add <|
      wait operation target lapse timeout state request kernel.clock (kernel.control add)

def run (operation : Operation Interest σ α) (descriptor : Descriptor)
    (timeout : Option Duration) (state : σ) (kernel : Kernel) : Report α :=
  start operation (fun interest => ⟨descriptor, interest⟩) .retry timeout state kernel

def connect (operation : Operation Target σ α) (timeout : Option Duration) (state : σ)
    (kernel : Kernel) : Report α :=
  start operation id .timeout (timeout.filter (!·.isZero)) state kernel

end DatabaseClient.Socket.Multiplexed
