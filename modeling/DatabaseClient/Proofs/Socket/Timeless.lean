import DatabaseClient.Proofs.Socket.Course
import DatabaseClient.Proofs.Socket.Rounds

set_option autoImplicit false

namespace DatabaseClient.Socket

@[simp] theorem uninterrupted_idle (kernel : Kernel) (time : Nat) :
    uninterrupted (kernel.idle time).arrivals = uninterrupted kernel.arrivals := by
  cases arrivals : kernel.arrivals <;> simp [uninterrupted, Kernel.idle, arrivals]

theorem uninterrupted_poll_none {kernel later : Kernel} {limit : Option Nat}
    (polled : kernel.poll limit = some (none, later)) :
    uninterrupted later.arrivals = uninterrupted kernel.arrivals := by
  obtain ⟨ms, -, rfl, -⟩ := Kernel.poll_none polled
  exact uninterrupted_idle kernel _

theorem uninterrupted_interruption {first : Arrival} {rest : List Arrival}
    (interrupted : first.signal = .failure Errno.interrupted) :
    uninterrupted (first :: rest) = uninterrupted rest := by
  simp [uninterrupted, interrupted]

theorem uninterrupted_cons {first : Arrival} {rest : List Arrival}
    (through : first.signal ≠ .failure Errno.interrupted) :
    uninterrupted (first :: rest) = first.signal :: uninterrupted rest := by
  simp [uninterrupted, through]

variable {ρ σ α : Type}

namespace Report

def Follows (report : Report α) (kernel : Kernel) (course : Course α) : Prop :=
  report.Ended → ∃ taken, report.Tells kernel taken course

def Takes (report : Report α) (kernel : Kernel) (course : Course α) : Prop :=
  report.Ended → ∃ first taken, report.Tells kernel (first :: taken) course

variable {report : Report α} {kernel later : Kernel} {course : Course α} {limit : Option Nat}

theorem Takes.follows (takes : report.Takes kernel course) : report.Follows kernel course := by
  intro ended
  obtain ⟨first, taken, tells⟩ := takes ended
  exact ⟨_, tells⟩

theorem Follows.ending (outcome : Outcome α) (kernel : Kernel) :
    (ending outcome kernel).Follows kernel ⟨[], outcome⟩ :=
  fun _ => ⟨_, .ending outcome kernel⟩

theorem Follows.called {call : Control} (accepted : kernel.answer call = 0)
    (follows : report.Follows (kernel.control call) course) :
    (called kernel call report).Follows kernel course := by
  rw [Report.called, if_pos accepted]
  intro ended
  obtain ⟨taken, tells⟩ := follows ended
  exact ⟨taken, tells.control⟩

theorem Follows.resume {operation : Operation ρ σ α} {state : σ}
    {ready : Option Readiness} {next : σ → ρ → Report α} {rest : σ → ρ → Course α}
    (follows : ∀ state request, (next state request).Follows kernel (rest state request)) :
    (operation.resume state ready kernel next).Follows kernel
      (operation.follow state ready rest) := by
  unfold Operation.resume Operation.follow
  rcases operation.step state ready with ⟨later, error | request | value⟩
  next => exact fun _ => ⟨[], (Tells.ending (.failed error) kernel).step⟩
  next =>
    intro ended
    obtain ⟨taken, tells⟩ := follows later request ended
    exact ⟨taken, tells.step⟩
  next => exact fun _ => ⟨[], (Tells.ending (.finished value) kernel).step⟩

theorem Follows.advance {operation : Operation ρ σ α} {call : ρ → Control}
    {again : σ → ρ → Kernel → Report α} {state : σ} {ready : Option Readiness}
    {rest : σ → ρ → Course α} (accepted : ∀ request, kernel.answer (call request) = 0)
    (follows : ∀ state request, (again state request (kernel.control (call request))).Follows
      (kernel.control (call request)) (rest state request)) :
    (operation.advance call again state ready kernel).Follows kernel
      (operation.follow state ready rest) :=
  .resume fun state request => .called (accepted request) (follows state request)

theorem Takes.idle (polled : kernel.poll limit = some (none, later))
    (takes : report.Takes later course) : (log (.poll limit none) report).Takes kernel course := by
  intro ended
  obtain ⟨first, taken, tells⟩ := takes ended
  obtain ⟨ms, -, rfl, late⟩ := Kernel.poll_none polled
  obtain ⟨first, tells⟩ := tells.idle late
  exact ⟨first, taken, tells⟩

theorem Follows.deliver {first : Arrival} {rest : List Arrival}
    (arrivals : kernel.arrivals = first :: rest)
    (follows : report.Follows (kernel.deliver first rest) course) :
    (log (.poll limit (some first.signal)) report).Takes kernel course := by
  intro ended
  obtain ⟨taken, tells⟩ := follows ended
  exact ⟨first, taken, tells.deliver arrivals⟩

end Report

namespace Reading

variable {reading : Reading} {operation : Operation Interest σ α} {state : σ} {interest : Interest}
  {report : Report α} {kernel later : Kernel} {limit : Option Nat}

theorem takes_none (polled : kernel.poll limit = some (none, later))
    (takes : report.Takes later
      (reading.await operation state interest (uninterrupted later.arrivals))) :
    (Report.log (.poll limit none) report).Takes kernel
      (reading.await operation state interest (uninterrupted kernel.arrivals)) := by
  rw [uninterrupted_poll_none polled] at takes
  exact takes.idle polled

theorem takes_interrupted
    (polled : kernel.poll limit = some (some (.failure Errno.interrupted), later))
    (follows : report.Follows later
      (reading.await operation state interest (uninterrupted later.arrivals))) :
    (Report.log (.poll limit (some (.failure Errno.interrupted))) report).Takes kernel
      (reading.await operation state interest (uninterrupted kernel.arrivals)) := by
  obtain ⟨first, rest, arrivals, signal, rfl⟩ := Kernel.poll_some polled
  rw [arrivals, uninterrupted_interruption signal, ← signal]
  exact follows.deliver arrivals

theorem takes_failed {errno : Nat}
    (polled : kernel.poll limit = some (some (.failure errno), later))
    (other : errno ≠ Errno.interrupted) :
    (Report.log (.poll limit (some (.failure errno)))
      (.osFailure errno later : Report α)).Takes kernel
      (reading.await operation state interest (uninterrupted kernel.arrivals)) := by
  obtain ⟨first, rest, arrivals, signal, rfl⟩ := Kernel.poll_some polled
  have through : first.signal ≠ .failure Errno.interrupted := by simpa [signal] using other
  rw [arrivals, uninterrupted_cons through, signal, await, ← signal]
  exact (Report.Follows.ending _ _).deliver arrivals

theorem takes_event {mask : EventMask}
    (polled : kernel.poll limit = some (some (.event mask), later))
    (follows : report.Follows later
      (reading.heed operation state interest mask fun state interest =>
        reading.await operation state interest (uninterrupted later.arrivals))) :
    (Report.log (.poll limit (some (.event mask))) report).Takes kernel
      (reading.await operation state interest (uninterrupted kernel.arrivals)) := by
  obtain ⟨first, rest, arrivals, signal, rfl⟩ := Kernel.poll_some polled
  rw [arrivals, uninterrupted_cons (by simp [signal]), signal, await, ← signal]
  exact follows.deliver arrivals

end Reading

variable {operation : Operation Interest σ α} {descriptor : Descriptor}

theorem Multiplexed.wait_takes (valid : 0 ≤ descriptor) (timeout : Option Duration) (state : σ)
    (interest : Interest) (start : Nat) (kernel : Kernel) (serves : kernel.Serves [descriptor]) :
    (wait operation (Target.mk descriptor) .retry timeout state interest start kernel).Takes kernel
      (Strategy.multiplexed.reading.await operation state interest
        (uninterrupted kernel.arrivals)) := by
  -- Every poll uses up an event or patience. The descriptor is registered whenever one is made.
  induction state, interest, start, kernel using wait_induction with
  | unreached => exact fun ended => absurd rfl ended.2
  | stuck => exact fun ended => absurd rfl ended.1
  | retried _ _ polled ih => exact Reading.takes_none polled (ih (serves.poll polled))
  | lapsed lapse => cases lapse
  | interrupted _ polled ih =>
    exact Reading.takes_interrupted polled (ih (serves.poll polled)).follows
  | failed _ polled other => exact Reading.takes_failed polled other
  | unheeded _ polled empty =>
    apply Reading.takes_event polled
    rw [Reading.heed_bad Strategy.multiplexed.reading empty]
    exact .ending _ _
  | met _ polled empty meets ih =>
    obtain ⟨removed, cleared⟩ := (serves.poll polled).remove valid
    apply Reading.takes_event polled
    rw [Reading.heed_meets Strategy.multiplexed.reading empty meets]
    apply Report.Follows.called removed
    apply Report.Follows.advance fun interest => (cleared.add valid ⟨interest, false⟩).1
    exact fun state interest => (ih state interest (cleared.add valid ⟨interest, false⟩).2).follows
  | mismatched _ polled empty apart =>
    apply Reading.takes_event polled
    rw [Reading.heed_mismatch Strategy.multiplexed.reading empty apart]
    exact .called ((serves.poll polled).remove valid).1 (.ending _ _)

theorem OneShot.wait_takes (valid : 0 ≤ descriptor) (limit : Option Nat) (state : σ)
    (interest : Interest) (kernel : Kernel) (serves : kernel.Serves [descriptor]) :
    (wait operation descriptor limit state interest kernel).Takes kernel
      (Strategy.oneShot.reading.await operation state interest
        (uninterrupted kernel.arrivals)) := by
  induction state, interest, kernel using wait_induction with
  | stuck => exact fun ended => absurd rfl ended.1
  | retried polled ih => exact Reading.takes_none polled (ih (serves.poll polled))
  | interrupted polled ih =>
    exact Reading.takes_interrupted polled (ih (serves.poll polled)).follows
  | failed polled other => exact Reading.takes_failed polled other
  | unheeded polled empty =>
    apply Reading.takes_event polled
    rw [Reading.heed_bad Strategy.oneShot.reading empty]
    exact .ending _ _
  | met polled empty meets ih =>
    have registered := serves.poll polled
    apply Reading.takes_event polled
    rw [Reading.heed_meets Strategy.oneShot.reading empty meets]
    apply Report.Follows.advance fun interest => (registered.modify valid ⟨interest, true⟩).1
    exact fun state interest =>
      (ih state interest (registered.modify valid ⟨interest, true⟩).2).follows
  | mismatched polled empty apart =>
    apply Reading.takes_event polled
    rw [Reading.heed_mismatch Strategy.oneShot.reading empty apart]
    exact .ending _ _

theorem Strategy.run_follows (strategy : Strategy) (operation : Operation Interest σ α)
    (valid : 0 ≤ descriptor) (timeout : Option Duration) (state : σ) {kernel : Kernel}
    (created : kernel.creation = 0) (serves : kernel.Serves []) :
    (strategy.run operation descriptor timeout state kernel).Follows kernel
      (strategy.reading.timeless operation state (uninterrupted kernel.arrivals)) := by
  cases strategy with
  | multiplexed =>
    simp only [run, Multiplexed.run, Multiplexed.start, Report.created, created, if_true]
    apply Report.Follows.advance fun interest => (serves.add valid ⟨interest, false⟩).1
    exact fun state interest => (Multiplexed.wait_takes valid timeout state interest _ _
      (serves.add valid ⟨interest, false⟩).2).follows
  | oneShot =>
    -- The limit is computed once, so that the course holds for every limit.
    simp only [run, OneShot.run, Report.created, created, if_true]
    apply Report.Follows.advance fun interest => (serves.add valid ⟨interest, true⟩).1
    exact fun state interest => (OneShot.wait_takes valid _ state interest _
      (serves.add valid ⟨interest, true⟩).2).follows

/-- A wait that ends takes the course of the reader of the bare signals, whatever its timeout. It
lasts as long as the events that it took, so that neither the polls nor interruptions show. -/
theorem Strategy.run_timeless (strategy : Strategy) (operation : Operation Interest σ α)
    (descriptor : Descriptor) (valid : 0 ≤ descriptor) (timeout : Option Duration) (state : σ)
    (kernel : Kernel) (created : kernel.creation = 0) (serves : kernel.Serves [])
    (unstuck : (strategy.run operation descriptor timeout state kernel).outcome ≠ .stuck)
    (reached : (strategy.run operation descriptor timeout state kernel).outcome ≠
      .aborted .deadlineOverflow) :
    (∃ taken, (strategy.run operation descriptor timeout state kernel).Tells kernel taken
      (strategy.reading.timeless operation state (uninterrupted kernel.arrivals))) ∧
    ∀ (slice : Option Duration) (other : Kernel), other.creation = 0 → other.Serves [] →
      uninterrupted other.arrivals = uninterrupted kernel.arrivals →
      (strategy.run operation descriptor slice state other).outcome ≠ .stuck →
      (strategy.run operation descriptor slice state other).outcome ≠ .aborted .deadlineOverflow →
      (strategy.run operation descriptor slice state other).course =
        (strategy.run operation descriptor timeout state kernel).course := by
  obtain ⟨taken, tells⟩ :=
    strategy.run_follows operation valid timeout state created serves ⟨unstuck, reached⟩
  refine ⟨⟨taken, tells⟩, ?_⟩
  intro slice other otherCreated otherServes same otherUnstuck otherReached
  obtain ⟨otherTaken, otherTells⟩ :=
    strategy.run_follows operation valid slice state otherCreated otherServes
      ⟨otherUnstuck, otherReached⟩
  rw [otherTells.course, tells.course, same]

theorem run_timeless_interrupted :
    let operation := Operation.scripted Interest Nat
    let steps : List (Except Error (Step Interest Nat)) := [.ok (.pending .read), .ok (.finished 7)]
    let second : Option Duration := some ⟨1000000000, by decide⟩
    let kernel := Kernel.fresh
      [⟨700, .failure Errno.interrupted⟩, ⟨1500000, .event EventMask.input⟩]
    let prompt := Kernel.fresh [⟨0, .event EventMask.input⟩]
    let report := Strategy.multiplexed.run operation 3 second steps kernel
    let armed := Strategy.oneShot.run operation 3 second steps kernel
    (report.outcome = .finished 7 ∧
      (∃ taken, report.Tells kernel taken ⟨[none, some ⟨true, false⟩], .finished 7⟩) ∧
      (Strategy.multiplexed.run operation 3 none steps prompt).course = report.course) ∧
    (armed.outcome = .finished 7 ∧
      (∃ taken, armed.Tells kernel taken ⟨[none, some ⟨true, false⟩], .finished 7⟩) ∧
      (Strategy.oneShot.run operation 3 none steps prompt).course = armed.course) := by
  intro operation steps second kernel prompt report armed
  have serves (arrivals : List Arrival) : (Kernel.fresh arrivals).Serves [] :=
    ⟨rfl, by simp [Kernel.fresh]⟩
  refine ⟨?_, ?_⟩
  next =>
    have outcome : report.outcome = .finished 7 := by cbv
    have early :
        (Strategy.multiplexed.run operation 3 none steps prompt).outcome = .finished 7 := by
      cbv
    obtain ⟨tells, same⟩ := Strategy.run_timeless .multiplexed operation 3 (by decide) second steps
      kernel rfl (serves _) (by simp [report, outcome]) (by simp [report, outcome])
    exact ⟨outcome, tells, same none prompt rfl (serves _) rfl (by simp [early]) (by simp [early])⟩
  next =>
    have outcome : armed.outcome = .finished 7 := by cbv
    have early : (Strategy.oneShot.run operation 3 none steps prompt).outcome = .finished 7 := by
      cbv
    obtain ⟨tells, same⟩ := Strategy.run_timeless .oneShot operation 3 (by decide) second steps
      kernel rfl (serves _) (by simp [armed, outcome]) (by simp [armed, outcome])
    exact ⟨outcome, tells, same none prompt rfl (serves _) rfl (by simp [early]) (by simp [early])⟩

end DatabaseClient.Socket
