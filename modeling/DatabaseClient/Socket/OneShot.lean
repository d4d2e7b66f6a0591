import DatabaseClient.Socket.Report

set_option autoImplicit false

namespace DatabaseClient.Socket.OneShot

/-- The failure of a wait whose event wakes neither side, which only one without bits does. -/
def badStatus : Error :=
  .internal "bad poll status: 0x0"

variable {σ α : Type} (operation : Operation Interest σ α) (descriptor : Descriptor)

def wait (limit : Option Nat) (state : σ) (interest : Interest) (kernel : Kernel) : Report α :=
  -- A poll that is interrupted or comes back empty is made again with the same limit.
  match _ : kernel.poll limit with
  | none => .stuck kernel
  | some (none, later) => .log (.poll limit none) (wait limit state interest later)
  | some (some (.failure errno), later) =>
    .log (.poll limit (some (.failure errno))) <|
      if errno = Errno.interrupted then wait limit state interest later
      else .osFailure errno later
  | some (some (.event mask), later) =>
    .log (.poll limit (some (.event mask))) <|
      let ready := mask.bySide
      if ready.isEmpty then .ending (.failed badStatus) later
      else if ready.meets interest then
        operation.resume state (some ready) later fun state interest =>
          let arm := Control.modify descriptor ⟨interest, true⟩
          .called later arm (wait limit state interest (later.control arm))
      else .ending (.aborted (.mismatch ready interest)) later
termination_by kernel.supply
decreasing_by all_goals simp [Kernel.supply_poll ‹kernel.poll _ = _›]

def run (timeout : Option Duration) (state : σ) (kernel : Kernel) : Report α :=
  operation.resume state none kernel fun state interest =>
    let add := Control.add descriptor ⟨interest, true⟩
    .created kernel <| .called kernel add <|
      wait operation descriptor (timeout.map fun d => pollLimit d.nanos) state interest
        (kernel.control add)

end DatabaseClient.Socket.OneShot
