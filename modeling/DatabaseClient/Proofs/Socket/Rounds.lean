import Mathlib.Tactic.SplitIfs
import DatabaseClient.Socket.OneShot
import DatabaseClient.Socket.Multiplexed
import DatabaseClient.Socket.Reactor

set_option autoImplicit false

namespace DatabaseClient.Socket

variable {ρ σ α : Type}

def Operation.advance (operation : Operation ρ σ α) (call : ρ → Control)
    (again : σ → ρ → Kernel → Report α) (state : σ) (ready : Option Readiness)
    (kernel : Kernel) : Report α :=
  operation.resume state ready kernel fun state request =>
    .called kernel (call request) (again state request (kernel.control (call request)))

theorem Operation.advance_congr {operation : Operation ρ σ α} {call : ρ → Control}
    {again another : σ → ρ → Kernel → Report α} {state : σ} {ready : Option Readiness}
    {kernel : Kernel}
    (same : ∀ state request, again state request (kernel.control (call request)) =
      another state request (kernel.control (call request))) :
    operation.advance call again state ready kernel =
      operation.advance call another state ready kernel := by
  simp only [advance, same]

abbrev Target.add (target : Target) : Control := .add target.descriptor ⟨target.interest, false⟩

abbrev Target.remove (target : Target) : Control := .remove target.descriptor

namespace Multiplexed

section Reaction

variable (operation : Operation ρ σ α) (target : ρ → Target) (lapse : Lapse) (state : σ)
  (request : ρ) (start : Nat) (again : σ → ρ → Nat → Kernel → Report α) (later : Kernel)

/-- How a wait goes on after a poll, if `again` is how it waits. -/
def react : Option Signal → Report α
  | none =>
    match lapse with
    | .retry => again state request later.clock later
    | .timeout =>
      .called later (target request).remove
        (.ending (.failed .timeout) (later.control (target request).remove))
  | some (.failure errno) =>
    if errno = Errno.interrupted then again state request start later else .osFailure errno later
  | some (.event mask) =>
    let cleared := later.control (target request).remove
    if mask.byFlag.isEmpty then .ending (.failed badStatus) later
    else .called later (target request).remove <|
      if mask.byFlag.meets (target request).interest then
        operation.advance (fun request => (target request).add)
          (fun state request kernel => again state request kernel.clock kernel) state
          (some mask.byFlag) cleared
      else .ending (.aborted (.mismatch mask.byFlag (target request).interest)) cleared

theorem react_interrupted :
    react operation target lapse state request start again later
      (some (.failure Errno.interrupted)) = again state request start later := by
  rw [react, if_pos rfl]

variable {target request}

theorem react_failed {errno : Nat} (other : errno ≠ Errno.interrupted) :
    react operation target lapse state request start again later (some (.failure errno)) =
      .osFailure errno later :=
  if_neg other

variable {mask : EventMask}

theorem react_unheeded (empty : mask.byFlag.isEmpty = true) :
    react operation target lapse state request start again later (some (.event mask)) =
      .ending (.failed badStatus) later :=
  if_pos empty

theorem react_met (nonempty : ¬ mask.byFlag.isEmpty = true)
    (meets : mask.byFlag.meets (target request).interest = true) :
    react operation target lapse state request start again later (some (.event mask)) =
      .called later (target request).remove
        (operation.advance (fun request => (target request).add)
          (fun state request kernel => again state request kernel.clock kernel) state
          (some mask.byFlag) (later.control (target request).remove)) := by
  simp only [react, if_neg nonempty, if_pos meets]

theorem react_mismatched (nonempty : ¬ mask.byFlag.isEmpty = true)
    (apart : ¬ mask.byFlag.meets (target request).interest = true) :
    react operation target lapse state request start again later (some (.event mask)) =
      .called later (target request).remove
        (.ending (.aborted (.mismatch mask.byFlag (target request).interest))
          (later.control (target request).remove)) := by
  simp only [react, if_neg nonempty, if_neg apart]

end Reaction

variable {operation : Operation ρ σ α} {target : ρ → Target} {lapse : Lapse}
  {timeout : Option Duration}

section Unfolding

variable {state : σ} {request : ρ} {start : Nat} {kernel later : Kernel}

theorem wait_polled (reached : timeout.all (Kernel.reaches start) = true) {signal : Option Signal}
    (polled : kernel.poll (limitAt timeout start kernel.clock) = some (signal, later)) :
    wait operation target lapse timeout state request start kernel =
      .log (.poll (limitAt timeout start kernel.clock) signal)
        (react operation target lapse state request start (wait operation target lapse timeout)
          later signal) := by
  rw [wait, if_pos reached]
  split <;> cases polled.symm.trans ‹_› <;> rfl

theorem wait_stuck (reached : timeout.all (Kernel.reaches start) = true)
    (stuck : kernel.poll (limitAt timeout start kernel.clock) = none) :
    wait operation target lapse timeout state request start kernel = .stuck kernel := by
  rw [wait, if_pos reached]
  split <;> cases stuck.symm.trans ‹_›
  rfl

theorem wait_unreached (unreached : ¬ timeout.all (Kernel.reaches start) = true) :
    wait operation target lapse timeout state request start kernel =
      .ending (.aborted .deadlineOverflow) kernel := by
  rw [wait, if_neg unreached]

end Unfolding

theorem wait_induction {motive : σ → ρ → Nat → Kernel → Report α → Prop}
    (unreached : ∀ {state request start kernel}, ¬ timeout.all (Kernel.reaches start) = true →
      motive state request start kernel (.ending (.aborted .deadlineOverflow) kernel))
    (stuck : ∀ {state request start kernel}, timeout.all (Kernel.reaches start) = true →
      kernel.poll (limitAt timeout start kernel.clock) = none →
      motive state request start kernel (.stuck kernel))
    (retried : ∀ {state request start kernel later}, lapse = .retry →
      timeout.all (Kernel.reaches start) = true →
      kernel.poll (limitAt timeout start kernel.clock) = some (none, later) →
      motive state request later.clock later
        (wait operation target lapse timeout state request later.clock later) →
      motive state request start kernel
        (.log (.poll (limitAt timeout start kernel.clock) none)
          (wait operation target lapse timeout state request later.clock later)))
    (lapsed : ∀ {state request start kernel later}, lapse = .timeout →
      timeout.all (Kernel.reaches start) = true →
      kernel.poll (limitAt timeout start kernel.clock) = some (none, later) →
      motive state request start kernel
        (.log (.poll (limitAt timeout start kernel.clock) none)
          (.called later (target request).remove
            (.ending (.failed .timeout) (later.control (target request).remove)))))
    (interrupted : ∀ {state request start kernel later},
      timeout.all (Kernel.reaches start) = true →
      kernel.poll (limitAt timeout start kernel.clock) =
        some (some (.failure Errno.interrupted), later) →
      motive state request start later
        (wait operation target lapse timeout state request start later) →
      motive state request start kernel
        (.log (.poll (limitAt timeout start kernel.clock) (some (.failure Errno.interrupted)))
          (wait operation target lapse timeout state request start later)))
    (failed : ∀ {state request start kernel later errno},
      timeout.all (Kernel.reaches start) = true →
      kernel.poll (limitAt timeout start kernel.clock) = some (some (.failure errno), later) →
      errno ≠ Errno.interrupted →
      motive state request start kernel
        (.log (.poll (limitAt timeout start kernel.clock) (some (.failure errno)))
          (.osFailure errno later)))
    (unheeded : ∀ {state request start kernel later mask},
      timeout.all (Kernel.reaches start) = true →
      kernel.poll (limitAt timeout start kernel.clock) = some (some (.event mask), later) →
      mask.byFlag.isEmpty = true →
      motive state request start kernel
        (.log (.poll (limitAt timeout start kernel.clock) (some (.event mask)))
          (.ending (.failed badStatus) later)))
    (met : ∀ {state request start kernel later mask},
      timeout.all (Kernel.reaches start) = true →
      kernel.poll (limitAt timeout start kernel.clock) = some (some (.event mask), later) →
      ¬ mask.byFlag.isEmpty = true → mask.byFlag.meets (target request).interest = true →
      (∀ after asked, motive after asked later.clock
        ((later.control (target request).remove).control (target asked).add)
        (wait operation target lapse timeout after asked later.clock
          ((later.control (target request).remove).control (target asked).add))) →
      motive state request start kernel
        (.log (.poll (limitAt timeout start kernel.clock) (some (.event mask)))
          (.called later (target request).remove
            (operation.advance (fun request => (target request).add)
              (fun state request kernel =>
                wait operation target lapse timeout state request kernel.clock kernel)
              state (some mask.byFlag) (later.control (target request).remove)))))
    (mismatched : ∀ {state request start kernel later mask},
      timeout.all (Kernel.reaches start) = true →
      kernel.poll (limitAt timeout start kernel.clock) = some (some (.event mask), later) →
      ¬ mask.byFlag.isEmpty = true → ¬ mask.byFlag.meets (target request).interest = true →
      motive state request start kernel
        (.log (.poll (limitAt timeout start kernel.clock) (some (.event mask)))
          (.called later (target request).remove
            (.ending (.aborted (.mismatch mask.byFlag (target request).interest))
              (later.control (target request).remove)))))
    (state : σ) (request : ρ) (start : Nat) (kernel : Kernel) :
    motive state request start kernel
      (wait operation target lapse timeout state request start kernel) := by
  fun_induction wait operation target lapse timeout state request start kernel with
  | case1 state request start kernel limit reached none => exact stuck reached none
  | case2 state request start kernel limit remove reached later polled ih =>
    cases lapse with
    | retry => exact retried rfl reached polled ih
    | timeout => exact lapsed rfl reached polled
  | case3 state request start kernel limit reached errno later polled ih =>
    by_cases same : errno = Errno.interrupted
    next =>
      subst same
      rw [if_pos rfl]
      exact interrupted reached polled ih
    next =>
      rw [if_neg same]
      exact failed reached polled same
  | case4 state request start kernel limit remove reached mask later polled ih =>
    dsimp only
    split_ifs with empty meets
    next => exact unheeded reached polled empty
    next => exact met reached polled empty meets ih
    next => exact mismatched reached polled empty meets
  | case5 state request start kernel reached => exact unreached reached

end Multiplexed

namespace OneShot

variable {operation : Operation Interest σ α} {descriptor : Descriptor} {limit : Option Nat}

theorem wait_met {state : σ} {interest : Interest} {kernel later : Kernel} {mask : EventMask}
    (polled : kernel.poll limit = some (some (.event mask), later))
    (nonempty : ¬ mask.bySide.isEmpty = true) (meets : mask.bySide.meets interest = true) :
    wait operation descriptor limit state interest kernel =
      .log (.poll limit (some (.event mask)))
        (operation.advance (fun interest => .modify descriptor ⟨interest, true⟩)
          (wait operation descriptor limit) state (some mask.bySide) later) := by
  rw [wait]
  split <;> cases polled.symm.trans ‹_›
  dsimp only
  rw [if_neg nonempty, if_pos meets]
  rfl

theorem wait_induction {motive : σ → Interest → Kernel → Report α → Prop}
    (stuck : ∀ {state interest kernel}, kernel.poll limit = none →
      motive state interest kernel (.stuck kernel))
    (retried : ∀ {state interest kernel later}, kernel.poll limit = some (none, later) →
      motive state interest later (wait operation descriptor limit state interest later) →
      motive state interest kernel
        (.log (.poll limit none) (wait operation descriptor limit state interest later)))
    (interrupted : ∀ {state interest kernel later},
      kernel.poll limit = some (some (.failure Errno.interrupted), later) →
      motive state interest later (wait operation descriptor limit state interest later) →
      motive state interest kernel
        (.log (.poll limit (some (.failure Errno.interrupted)))
          (wait operation descriptor limit state interest later)))
    (failed : ∀ {state interest kernel later errno},
      kernel.poll limit = some (some (.failure errno), later) → errno ≠ Errno.interrupted →
      motive state interest kernel
        (.log (.poll limit (some (.failure errno))) (.osFailure errno later)))
    (unheeded : ∀ {state interest kernel later mask},
      kernel.poll limit = some (some (.event mask), later) → mask.bySide.isEmpty = true →
      motive state interest kernel
        (.log (.poll limit (some (.event mask))) (.ending (.failed badStatus) later)))
    (met : ∀ {state interest kernel later mask},
      kernel.poll limit = some (some (.event mask), later) →
      ¬ mask.bySide.isEmpty = true → mask.bySide.meets interest = true →
      (∀ state interest, motive state interest (later.control (.modify descriptor ⟨interest, true⟩))
        (wait operation descriptor limit state interest
          (later.control (.modify descriptor ⟨interest, true⟩)))) →
      motive state interest kernel
        (.log (.poll limit (some (.event mask)))
          (operation.advance (fun interest => .modify descriptor ⟨interest, true⟩)
            (wait operation descriptor limit) state (some mask.bySide) later)))
    (mismatched : ∀ {state interest kernel later mask},
      kernel.poll limit = some (some (.event mask), later) →
      ¬ mask.bySide.isEmpty = true → ¬ mask.bySide.meets interest = true →
      motive state interest kernel
        (.log (.poll limit (some (.event mask)))
          (.ending (.aborted (.mismatch mask.bySide interest)) later)))
    (state : σ) (interest : Interest) (kernel : Kernel) :
    motive state interest kernel (wait operation descriptor limit state interest kernel) := by
  fun_induction wait operation descriptor limit state interest kernel with
  | case1 state interest kernel none => exact stuck none
  | case2 state interest kernel later polled ih => exact retried polled ih
  | case3 state interest kernel errno later polled ih =>
    by_cases same : errno = Errno.interrupted
    next =>
      subst same
      rw [if_pos rfl]
      exact interrupted polled ih
    next =>
      rw [if_neg same]
      exact failed polled same
  | case4 state interest kernel mask later polled ih =>
    dsimp only
    split_ifs with empty meets
    next => exact unheeded polled empty
    next => exact met polled empty meets ih
    next => exact mismatched polled empty meets

end OneShot

namespace Reactor

section Reaction

variable (operation : Operation ρ σ α) (target : ρ → Target) (state : σ) (request : ρ) (start : Nat)
  (again : σ → ρ → Nat → Kernel → Report α) (later : Kernel)

def react (signal : Signal) : Report α :=
  let ready := satisfied (target request).interest signal
  if ready.isEmpty then again state request start later
  else .attempted later (target request).remove <|
    operation.advance (fun request => (target request).add)
      (fun state request kernel => again state request kernel.clock kernel) state (some ready)
      (later.control (target request).remove)

variable {target request} {signal : Signal}

theorem react_passed
    (empty : (satisfied (target request).interest signal).isEmpty = true) :
    react operation target state request start again later signal =
      again state request start later :=
  if_pos empty

theorem react_met
    (nonempty : ¬ (satisfied (target request).interest signal).isEmpty = true) :
    react operation target state request start again later signal =
      .attempted later (target request).remove
        (operation.advance (fun request => (target request).add)
          (fun state request kernel => again state request kernel.clock kernel) state
          (some (satisfied (target request).interest signal))
          (later.control (target request).remove)) :=
  if_neg nonempty

end Reaction

variable {operation : Operation ρ σ α} {target : ρ → Target} {timeout : Option Duration}
  {cancel : Option Nat}

section Unfolding

variable {state : σ} {request : ρ} {start : Nat} {kernel : Kernel}

theorem wait_idle (arrivals : kernel.arrivals = []) :
    wait operation target timeout cancel state request start kernel =
      match limit? timeout cancel start with
      | none => .stuck kernel
      | some (_, cause) => abandon (target request) cause kernel := by
  rw [wait]
  split <;> cases arrivals.symm.trans ‹_›
  rfl

theorem wait_arrival {first : Arrival} {rest : List Arrival}
    (arrivals : kernel.arrivals = first :: rest) :
    wait operation target timeout cancel state request start kernel =
      match (limit? timeout cancel start).filter
        (·.1 ≤ 1000 * (kernel.deliver first rest).clock) with
      | some (_, cause) => abandon (target request) cause kernel
      | none => react operation target state request start
          (wait operation target timeout cancel) (kernel.deliver first rest) first.signal := by
  rw [wait]
  split <;> cases arrivals.symm.trans ‹_›
  rfl

end Unfolding

theorem wait_induction {motive : σ → ρ → Nat → Kernel → Report α → Prop}
    (stuck : ∀ {state request start kernel}, kernel.arrivals = [] →
      limit? timeout cancel start = none → motive state request start kernel (.stuck kernel))
    (abandoned : ∀ {state request start kernel time cause}, kernel.arrivals = [] →
      limit? timeout cancel start = some (time, cause) →
      motive state request start kernel (abandon (target request) cause kernel))
    (overdue : ∀ {state request start kernel first rest time cause},
      kernel.arrivals = first :: rest →
      (limit? timeout cancel start).filter (·.1 ≤ 1000 * (kernel.deliver first rest).clock) =
        some (time, cause) →
      motive state request start kernel (abandon (target request) cause kernel))
    (passed : ∀ {state request start kernel first rest}, kernel.arrivals = first :: rest →
      (limit? timeout cancel start).filter (·.1 ≤ 1000 * (kernel.deliver first rest).clock) =
        none →
      (satisfied (target request).interest first.signal).isEmpty = true →
      motive state request start (kernel.deliver first rest)
        (wait operation target timeout cancel state request start (kernel.deliver first rest)) →
      motive state request start kernel
        (wait operation target timeout cancel state request start (kernel.deliver first rest)))
    (met : ∀ {state request start kernel first rest}, kernel.arrivals = first :: rest →
      (limit? timeout cancel start).filter (·.1 ≤ 1000 * (kernel.deliver first rest).clock) =
        none →
      ¬ (satisfied (target request).interest first.signal).isEmpty = true →
      (∀ after asked, motive after asked (kernel.deliver first rest).clock
        (((kernel.deliver first rest).control (target request).remove).control (target asked).add)
        (wait operation target timeout cancel after asked (kernel.deliver first rest).clock
          (((kernel.deliver first rest).control (target request).remove).control
            (target asked).add))) →
      motive state request start kernel
        (.attempted (kernel.deliver first rest) (target request).remove
          (operation.advance (fun request => (target request).add)
            (fun state request kernel =>
              wait operation target timeout cancel state request kernel.clock kernel)
            state (some (satisfied (target request).interest first.signal))
            ((kernel.deliver first rest).control (target request).remove))))
    (state : σ) (request : ρ) (start : Nat) (kernel : Kernel) :
    motive state request start kernel
      (wait operation target timeout cancel state request start kernel) := by
  fun_induction wait operation target timeout cancel state request start kernel with
  | case1 state request start kernel arrivals none => exact stuck arrivals none
  | case2 state request start kernel arrivals time cause given => exact abandoned arrivals given
  | case3 state request start kernel first rest arrivals later time cause given =>
    exact overdue arrivals given
  | case4 state request start kernel first rest arrivals later inTime ready empty ih =>
    exact passed arrivals inTime empty ih
  | case5 state request start kernel first rest arrivals later inTime ready nonempty remove
      cleared ih =>
    exact met arrivals inTime nonempty ih

end Reactor

end DatabaseClient.Socket
