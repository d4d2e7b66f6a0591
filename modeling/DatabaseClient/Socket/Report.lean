import DatabaseClient.Socket.Kernel

set_option autoImplicit false

namespace DatabaseClient.Socket

inductive Abort where
  | deadlineOverflow
  -- An operation is not to be stepped with readiness that it did not ask for.
  | mismatch (ready : Readiness) (interest : Interest)
deriving DecidableEq

def Abort.message : Abort → String
  | .deadlineOverflow => "overflow when adding duration to instant"
  | .mismatch ready interest =>
    s!"readiness {ready.display} doesn't satisfy request {interest.name}"

inductive Outcome (α : Type) where
  | finished (value : α)
  | failed (error : Error)
  | aborted (abort : Abort)
  | cancelled
  -- Nothing can happen any more.
  | stuck
deriving DecidableEq

inductive Entry where
  | step (clock : Nat) (ready : Option Readiness)
  | control (call : Control) (errno : Nat)
  | poll (limit : Option Nat) (signal : Option Signal)
  | stuck
deriving DecidableEq

structure Report (α : Type) where
  trace : List Entry
  outcome : Outcome α
  kernel : Kernel

namespace Report

variable {α : Type}

def ending (outcome : Outcome α) (kernel : Kernel) : Report α := ⟨[], outcome, kernel⟩

def stuck (kernel : Kernel) : Report α := ⟨[.stuck], .stuck, kernel⟩

def osFailure (errno : Nat) (kernel : Kernel) : Report α :=
  ending (.failed (.io (.os errno))) kernel

def log (entry : Entry) (rest : Report α) : Report α :=
  { rest with trace := entry :: rest.trace }

@[simp] theorem trace_log (entry : Entry) (rest : Report α) :
    (log entry rest).trace = entry :: rest.trace := rfl

@[simp] theorem outcome_log (entry : Entry) (rest : Report α) :
    (log entry rest).outcome = rest.outcome := rfl

@[simp] theorem kernel_log (entry : Entry) (rest : Report α) :
    (log entry rest).kernel = rest.kernel := rfl

@[macro_inline] def created (kernel : Kernel) (next : Report α) : Report α :=
  if kernel.creation = 0 then next else osFailure kernel.creation kernel

@[macro_inline] def called (kernel : Kernel) (call : Control) (next : Report α) : Report α :=
  log (.control call (kernel.answer call))
    (if kernel.answer call = 0 then next
      else osFailure (kernel.answer call) (kernel.control call))

/-- Changes the registrations and goes on in any case. -/
@[macro_inline] def attempted (kernel : Kernel) (call : Control) (next : Report α) : Report α :=
  log (.control call (kernel.answer call)) next

end Report

def Operation.resume {ρ σ α : Type} (operation : Operation ρ σ α) (state : σ)
    (ready : Option Readiness) (kernel : Kernel) (next : σ → ρ → Report α) : Report α :=
  .log (.step kernel.clock ready) <|
    match operation.step state ready with
    | (_, .error e) => .ending (.failed e) kernel
    | (_, .ok (.finished value)) => .ending (.finished value) kernel
    | (later, .ok (.pending request)) => next later request

end DatabaseClient.Socket
