import DatabaseClient.Proofs.Socket.Polling
import DatabaseClient.Proofs.Socket.Rounds

set_option autoImplicit false

namespace DatabaseClient.Socket

variable {ρ τ σ α : Type}

def Step.map (f : ρ → τ) : Step ρ α → Step τ α
  | .pending request => .pending (f request)
  | .finished value => .finished value

namespace Operation

def mapRequest (operation : Operation ρ σ α) (f : ρ → τ) : Operation τ σ α where
  step state ready :=
    ((operation.step state ready).1, (operation.step state ready).2.map (Step.map f))

def fixedTo (operation : Operation Interest σ α) (descriptor : Descriptor) :
    Operation Target σ α :=
  operation.mapRequest (Target.mk descriptor)

theorem resume_mapRequest (operation : Operation ρ σ α) (f : ρ → τ) (state : σ)
    (ready : Option Readiness) (kernel : Kernel) (next : σ → τ → Report α) :
    (operation.mapRequest f).resume state ready kernel next =
      operation.resume state ready kernel fun later request => next later (f request) := by
  simp only [resume, mapRequest]
  rcases operation.step state ready with ⟨later, error | request | value⟩ <;> rfl

theorem advance_mapRequest {operation : Operation ρ σ α} {f : ρ → τ} {call : τ → Control}
    {again : σ → τ → Kernel → Report α} {another : σ → ρ → Kernel → Report α} {state : σ}
    {ready : Option Readiness} {kernel : Kernel}
    (same : ∀ later request, again later (f request) (kernel.control (call (f request))) =
      another later request (kernel.control (call (f request)))) :
    (operation.mapRequest f).advance call again state ready kernel =
      operation.advance (fun request => call (f request)) another state ready kernel := by
  simp only [advance, resume_mapRequest, same]

end Operation

namespace Multiplexed

theorem wait_mapRequest (operation : Operation ρ σ α) (f : ρ → τ) (target : τ → Target)
    (lapse other : Lapse) (state : σ) (request : ρ) (start : Nat) (kernel : Kernel) :
    wait (operation.mapRequest f) target lapse none state (f request) start kernel =
      wait operation (fun request => target (f request)) other none state request start kernel := by
  induction state, request, start, kernel using wait_induction with
  | unreached unreached => exact absurd rfl unreached
  | stuck reached stuck => rw [wait_stuck reached stuck]
  -- Without a limit no poll comes back empty, and what would follow does not matter.
  | retried _ _ polled => exact absurd rfl (Kernel.poll_unlimited polled)
  | lapsed _ _ polled => exact absurd rfl (Kernel.poll_unlimited polled)
  | interrupted reached polled ih => rw [wait_polled reached polled, react_interrupted, ih]
  | failed reached polled other => rw [wait_polled reached polled, react_failed _ _ _ _ _ _ other]
  | unheeded reached polled empty =>
    rw [wait_polled reached polled, react_unheeded _ _ _ _ _ _ empty]
  | met reached polled nonempty meets ih =>
    rw [wait_polled reached polled, react_met _ _ _ _ _ _ nonempty meets]
    exact congrArg (fun next => Report.log _ (.called _ _ next)) (Operation.advance_mapRequest ih)
  | mismatched reached polled nonempty apart =>
    rw [wait_polled reached polled, react_mismatched _ _ _ _ _ _ nonempty apart]

theorem start_mapRequest (operation : Operation ρ σ α) (f : ρ → τ) (target : τ → Target)
    (lapse other : Lapse) (state : σ) (kernel : Kernel) :
    start (operation.mapRequest f) target lapse none state kernel =
      start operation (fun request => target (f request)) other none state kernel := by
  simp only [start, Operation.resume_mapRequest, wait_mapRequest operation f target lapse other]

end Multiplexed

namespace Reactor

theorem wait_mapRequest (operation : Operation ρ σ α) (f : ρ → τ) (target : τ → Target)
    (timeout : Option Duration) (cancel : Option Nat) (state : σ) (request : ρ) (start : Nat)
    (kernel : Kernel) :
    wait (operation.mapRequest f) target timeout cancel state (f request) start kernel =
      wait operation (fun request => target (f request)) timeout cancel state request start
        kernel := by
  induction state, request, start, kernel using wait_induction with
  | stuck arrivals endless => rw [wait_idle arrivals, endless]
  | abandoned arrivals given => rw [wait_idle arrivals, given]
  | overdue arrivals given => rw [wait_arrival arrivals, given]
  | passed arrivals inTime empty ih =>
    rw [wait_arrival arrivals, inTime]
    exact (react_passed _ _ _ _ _ empty).trans ih
  | met arrivals inTime nonempty ih =>
    rw [wait_arrival arrivals, inTime]
    refine (react_met _ _ _ _ _ nonempty).trans ?_
    exact congrArg (Report.attempted _ _) (Operation.advance_mapRequest ih)

theorem start_mapRequest (operation : Operation ρ σ α) (f : ρ → τ) (target : τ → Target)
    (timeout : Option Duration) (cancel : Option Nat) (state : σ) (kernel : Kernel) :
    start (operation.mapRequest f) target timeout cancel state kernel =
      start operation (fun request => target (f request)) timeout cancel state kernel := by
  simp only [start, Operation.resume_mapRequest, wait_mapRequest]

end Reactor

theorem filter_of_zero {zero : Duration} (isZero : zero.isZero = true) :
    (some zero).filter (!·.isZero) = none := by
  simp [isZero]

/-- Without a timeout, and with one of zero, which is none, the making of a connection over one
socket is the wait on that socket: it makes the same calls with the same answers at the same times
and ends alike, whatever fails. On a reactor it is so with any timeout that is not zero. -/
theorem connect_fixedTo (operation : Operation Interest σ α) (descriptor : Descriptor)
    (state : σ) (kernel : Kernel) :
    let attempt := operation.fixedTo descriptor
    let unlimited := Multiplexed.run operation descriptor none state kernel
    Multiplexed.connect attempt none state kernel = unlimited ∧
    (∀ zero : Duration, zero.isZero = true →
      Multiplexed.connect attempt (some zero) state kernel = unlimited) ∧
    (∀ timeout cancel, (∀ d, timeout = some d → d.isZero = false) →
      Reactor.connect attempt timeout cancel state kernel =
        Reactor.run operation descriptor timeout cancel state kernel) ∧
    ∀ (zero : Duration) cancel, zero.isZero = true →
      Reactor.connect attempt (some zero) cancel state kernel =
        Reactor.run operation descriptor none cancel state kernel := by
  intro attempt unlimited
  have blocking : Multiplexed.start attempt id .timeout none state kernel = unlimited :=
    Multiplexed.start_mapRequest operation (Target.mk descriptor) id .timeout .retry state kernel
  have suspended (timeout : Option Duration) (cancel : Option Nat) :
      Reactor.start attempt id timeout cancel state kernel =
        Reactor.run operation descriptor timeout cancel state kernel :=
    Reactor.start_mapRequest operation (Target.mk descriptor) id timeout cancel state kernel
  refine ⟨blocking, fun zero isZero => ?_, fun timeout cancel positive => ?_,
    fun zero cancel isZero => ?_⟩
  next => rw [Multiplexed.connect, filter_of_zero isZero, blocking]
  next =>
    have kept : timeout.filter (!·.isZero) = timeout := by
      cases timeout with
      | none => rfl
      | some d => simp [positive d rfl]
    rw [Reactor.connect, kept, suspended]
  next => rw [Reactor.connect, filter_of_zero isZero, suspended]

/-- The removal after the second event fails. That ends the blocking wait; the suspended one goes on
and finds its descriptor still registered. -/
theorem connect_fixedTo_refused :
    let operation := Operation.scripted Interest Nat
    let steps := [.ok (.pending .read), .ok (.pending .both), .ok (.pending .write),
      .ok (.finished 7)]
    let kernel := { Kernel.fresh [⟨700, .event EventMask.input⟩, ⟨1500, .event EventMask.hangUp⟩,
      ⟨900, .event EventMask.output⟩] with faults := [0, 0, 0, 5] }
    let attempt := operation.fixedTo 3
    let timeout : Duration := ⟨5000000, by decide⟩
    Multiplexed.connect attempt (some ⟨0, by decide⟩) steps kernel =
      Multiplexed.run operation 3 none steps kernel ∧
    (Multiplexed.run operation 3 none steps kernel).outcome = .failed (.io (.os 5)) ∧
    Reactor.connect attempt (some timeout) none steps kernel =
      Reactor.run operation 3 (some timeout) none steps kernel ∧
    (Reactor.run operation 3 (some timeout) none steps kernel).outcome =
      .failed (.io (.os Errno.alreadyRegistered)) := by
  intro operation steps kernel attempt timeout
  obtain ⟨-, zero, positive, -⟩ := connect_fixedTo operation 3 steps kernel
  refine ⟨zero ⟨0, by decide⟩ rfl, by cbv, positive (some timeout) none ?_, by cbv⟩
  rintro d ⟨⟩
  rfl

end DatabaseClient.Socket
