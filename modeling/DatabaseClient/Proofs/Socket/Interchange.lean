import DatabaseClient.Proofs.Socket.Timeless

set_option autoImplicit false

namespace DatabaseClient.Socket

def EventMask.Plain (mask : EventMask) : Prop :=
  mask &&& (input ||| output ||| error ||| hangUp) = mask

theorem EventMask.has_plain {mask bits others : EventMask} (plain : mask.Plain)
    (same : (input ||| output ||| error ||| hangUp) &&& bits =
      (input ||| output ||| error ||| hangUp) &&& others) :
    mask.has bits = mask.has others := by
  have masked : mask &&& bits = mask &&& others := by
    rw [← plain, UInt32.and_assoc, UInt32.and_assoc, same]
  rw [has, has, masked]

theorem EventMask.byFlag_plain {mask : EventMask} (plain : mask.Plain) :
    mask.byFlag = mask.bySide := by
  have read : mask.has (input ||| priority ||| hangUp ||| error) = mask.has (~~~output) :=
    has_plain plain (by decide)
  have write : mask.has (output ||| hangUp ||| error) = mask.has (~~~input) :=
    has_plain plain (by decide)
  rw [byFlag, bySide, read, write]

theorem Strategy.ready_plain (strategy : Strategy) {mask : EventMask} (plain : mask.Plain) :
    strategy.reading.ready mask = mask.bySide := by
  cases strategy with
  | multiplexed => exact EventMask.byFlag_plain plain
  | oneShot => rfl

theorem event_of_uninterrupted {arrivals : List Arrival} {signal : Signal}
    (member : signal ∈ uninterrupted arrivals) : signal ∈ arrivals.map Arrival.signal :=
  (List.mem_filter.mp member).1

variable {σ α : Type}

/-- Two courses that differ at most in what is said of a status that wakes neither side. -/
structure Alike (first second : Reading) (course other : Course α) : Prop where
  told : course.told = other.told
  outcome : course.outcome = other.outcome ∨
    course.outcome = .failed first.badStatus ∧ other.outcome = .failed second.badStatus

variable {first second : Reading}

theorem Alike.refl (course : Course α) : Alike first second course course :=
  ⟨rfl, .inl rfl⟩

theorem Alike.follow {ρ : Type} (operation : Operation ρ σ α) (state : σ)
    (ready : Option Readiness) {next rest : σ → ρ → Course α}
    (alike : ∀ state request, Alike first second (next state request) (rest state request)) :
    Alike first second (operation.follow state ready next) (operation.follow state ready rest) := by
  unfold Operation.follow
  rcases operation.step state ready with ⟨later, error | request | value⟩
  next => exact .refl _
  next =>
    obtain ⟨told, outcome⟩ := alike later request
    exact ⟨congrArg (ready :: ·) told, outcome⟩
  next => exact .refl _

theorem Alike.await (operation : Operation Interest σ α) (state : σ) (interest : Interest)
    {signals : List Signal}
    (same : ∀ mask, Signal.event mask ∈ signals → first.ready mask = second.ready mask) :
    Alike first second (first.await operation state interest signals)
      (second.await operation state interest signals) := by
  induction signals generalizing state interest with
  | nil => exact .refl _
  | cons signal rest ih =>
    cases signal with
    | failure errno => exact .refl _
    | event mask =>
      have seen : first.ready mask = second.ready mask := same mask (by simp)
      have waits := fun state interest =>
        ih state interest fun mask member => same mask (by simp [member])
      rw [Reading.await, Reading.await]
      by_cases empty : (first.ready mask).isEmpty = true
      next =>
        rw [first.heed_bad empty, second.heed_bad (seen ▸ empty)]
        exact ⟨rfl, .inr ⟨rfl, rfl⟩⟩
      next =>
        by_cases meets : (first.ready mask).meets interest = true
        next =>
          rw [first.heed_meets empty meets, second.heed_meets (seen ▸ empty) (seen ▸ meets), seen]
          exact .follow operation state _ waits
        next =>
          rw [first.heed_mismatch empty meets,
            second.heed_mismatch (seen ▸ empty) (seen ▸ meets), seen]
          exact .refl _

theorem Report.course_resume {ρ : Type} (operation : Operation ρ σ α) (state : σ)
    (ready : Option Readiness) (kernel : Kernel) (next : σ → ρ → Report α) :
    (operation.resume state ready kernel next).course =
      operation.follow state ready fun state request => (next state request).course := by
  unfold Operation.resume Operation.follow
  rcases operation.step state ready with ⟨later, error | request | value⟩ <;> rfl

theorem Report.course_called {kernel : Kernel} {call : Control} (accepted : kernel.answer call = 0)
    (next : Report α) : (called kernel call next).course = next.course := by
  rw [called, if_pos accepted]
  rfl

def Kernel.refusal (kernel : Kernel) : Nat :=
  if kernel.creation = 0 then Errno.badDescriptor else kernel.creation

theorem Report.course_refused {kernel : Kernel} {descriptor : Descriptor}
    (serves : kernel.Serves []) (refused : kernel.creation ≠ 0 ∨ descriptor < 0) (watch : Watch)
    (next : Report α) :
    (created kernel (called kernel (.add descriptor watch) next)).course =
      ⟨[], .failed (.io (.os kernel.refusal))⟩ := by
  unfold Report.created Kernel.refusal
  by_cases creation : kernel.creation = 0
  next =>
    have invalid : descriptor < 0 := refused.resolve_left (by simp [creation])
    have answer := serves.refuses invalid watch
    rw [if_pos creation, if_pos creation, Report.called, answer]
    rfl
  next =>
    rw [if_neg creation, if_neg creation]
    rfl

theorem Strategy.run_refused (strategy : Strategy) (operation : Operation Interest σ α)
    {descriptor : Descriptor} (timeout : Option Duration) (state : σ) {kernel : Kernel}
    (serves : kernel.Serves []) (refused : kernel.creation ≠ 0 ∨ descriptor < 0) :
    (strategy.run operation descriptor timeout state kernel).course =
      operation.follow state none fun _ _ => ⟨[], .failed (.io (.os kernel.refusal))⟩ := by
  cases strategy with
  | multiplexed =>
    refine (Report.course_resume operation state none kernel _).trans ?_
    simp only [Report.course_refused serves refused]
  | oneShot =>
    refine (Report.course_resume operation state none kernel _).trans ?_
    simp only [Report.course_refused serves refused]

/-- Two waits on the same kernel, of whatever strategies and timeouts, tell the operation the same
and end alike. -/
theorem Strategy.run_interchangeable (first second : Strategy)
    (operation : Operation Interest σ α) (descriptor : Descriptor)
    (timeout slice : Option Duration) (state : σ) (kernel : Kernel) (serves : kernel.Serves [])
    (plain : ∀ mask, Signal.event mask ∈ kernel.arrivals.map Arrival.signal → mask.Plain)
    (ended : (first.run operation descriptor timeout state kernel).Ended)
    (otherEnded : (second.run operation descriptor slice state kernel).Ended) :
    Alike first.reading second.reading (first.run operation descriptor timeout state kernel).course
      (second.run operation descriptor slice state kernel).course := by
  by_cases refused : kernel.creation ≠ 0 ∨ descriptor < 0
  next =>
    -- Neither wait gets as far as a poll.
    rw [first.run_refused operation timeout state serves refused,
      second.run_refused operation slice state serves refused]
    exact .refl _
  next =>
    obtain ⟨created, valid⟩ := not_or.mp refused
    obtain ⟨taken, tells⟩ := first.run_follows operation (Int.not_lt.mp valid) timeout state
      (Decidable.not_not.mp created) serves ended
    obtain ⟨others, otherTells⟩ := second.run_follows operation (Int.not_lt.mp valid) slice state
      (Decidable.not_not.mp created) serves otherEnded
    -- Both take the course of a reader of the same signals.
    rw [tells.course, otherTells.course]
    apply Alike.follow
    intro state interest
    apply Alike.await
    intro mask member
    have flags := plain mask (event_of_uninterrupted member)
    rw [first.ready_plain flags, second.ready_plain flags]

theorem run_interchangeable_hangUp :
    let operation := Operation.scripted Interest Nat
    let steps : List (Except Error (Step Interest Nat)) := [.ok (.pending .both), .ok (.finished 7)]
    let second : Option Duration := some ⟨1000000000, by decide⟩
    let kernel := Kernel.fresh
      [⟨700, .failure Errno.interrupted⟩, ⟨1500000, .event EventMask.hangUp⟩]
    let report := Strategy.multiplexed.run operation 3 second steps kernel
    let armed := Strategy.oneShot.run operation 3 none steps kernel
    report.course = ⟨[none, some ⟨true, true⟩], .finished 7⟩ ∧
    armed.course = ⟨[none, some ⟨true, true⟩], .finished 7⟩ ∧
    Alike Strategy.multiplexed.reading Strategy.oneShot.reading report.course armed.course := by
  intro operation steps second kernel report armed
  have outcome : report.outcome = .finished 7 := by cbv
  have armedOutcome : armed.outcome = .finished 7 := by cbv
  refine ⟨by cbv, by cbv, ?_⟩
  exact Strategy.run_interchangeable .multiplexed .oneShot operation 3 second none steps kernel
    ⟨rfl, by simp [kernel, Kernel.fresh]⟩ (by simp [kernel, Kernel.fresh, EventMask.Plain]; decide)
    ⟨by simp [report, outcome], by simp [report, outcome]⟩
    ⟨by simp [armed, armedOutcome], by simp [armed, armedOutcome]⟩

end DatabaseClient.Socket
