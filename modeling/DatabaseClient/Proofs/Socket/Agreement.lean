import DatabaseClient.Proofs.Socket.Interchange
import DatabaseClient.Proofs.Socket.Log

set_option autoImplicit false

namespace DatabaseClient.Socket

namespace EventMask

def asked (interest : Interest) : EventMask :=
  (if interest.reads then input else 0) ||| (if interest.writes then output else 0)

def Answers (mask : EventMask) (interest : Interest) : Prop :=
  mask ≠ 0 ∧ mask &&& asked interest = mask

instance (mask : EventMask) (interest : Interest) : Decidable (mask.Answers interest) :=
  inferInstanceAs (Decidable (_ ∧ _))

def sides (mask : EventMask) : Readiness := ⟨mask.has input, mask.has output⟩

def answers : Interest → List EventMask
  | .read => [input]
  | .write => [output]
  | .both => [input, output, input ||| output]

theorem Answers.mem {mask : EventMask} {interest : Interest} (answering : mask.Answers interest) :
    mask ∈ answers interest := by
  have bounded : mask.toNat < 6 := by
    have below : mask ≤ asked interest := answering.2 ▸ UInt32.and_le_right
    have limit : (asked interest).toNat < 6 := by cases interest <;> decide
    exact Nat.lt_of_le_of_lt below limit
  have tried : ∀ n < 6, Answers (UInt32.ofNat n) interest →
      UInt32.ofNat n ∈ answers interest := by
    cases interest <;> decide
  simpa using tried mask.toNat bounded (by simpa using answering)

theorem Answers.readings {mask : EventMask} {interest : Interest}
    (answering : mask.Answers interest) :
    mask.byFlag = mask.sides ∧ mask.bySide = mask.sides ∧
      mask.byReactor.inter interest.readiness = mask.sides ∧
      ¬ mask.sides.isEmpty = true ∧ mask.sides.meets interest = true := by
  have one := answering.mem
  cases interest <;> simp only [answers, List.mem_cons, List.not_mem_nil, or_false] at one
  case read => subst one; decide
  case write => subst one; decide
  case both => rcases one with rfl | rfl | rfl <;> decide

end EventMask

variable {ρ σ α : Type}

namespace Operation

/-- For each request there is an event, and it answers the request of its time. Events that come
after the operation's end may be any. -/
inductive Answered (operation : Operation Interest σ α) :
    σ → Option Readiness → List Arrival → Prop
  | ended {state : σ} {ready : Option Readiness} {arrivals : List Arrival}
      (ends : ∀ interest, (operation.step state ready).2 ≠ .ok (.pending interest)) :
      operation.Answered state ready arrivals
  | pending {state later : σ} {ready : Option Readiness} {interest : Interest} {delay : Nat}
      {mask : EventMask} {rest : List Arrival}
      (asks : operation.step state ready = (later, .ok (.pending interest)))
      (answers : mask.Answers interest)
      (goes : operation.Answered later (some mask.sides) rest) :
      operation.Answered state ready (⟨delay, .event mask⟩ :: rest)

def Concludes (operation : Operation ρ σ α) (state : σ) (course : Course α) : Prop :=
  (∃ value, operation.last? state course.told = some (.ok (.finished value)) ∧
    course.outcome = .finished value) ∨
  ∃ error, operation.last? state course.told = some (.error error) ∧ course.outcome = .failed error

theorem last_cons (operation : Operation ρ σ α) (state : σ) (ready other : Option Readiness)
    (told : List (Option Readiness)) :
    operation.last? state (ready :: other :: told) =
      operation.last? (operation.step state ready).1 (other :: told) := by
  simp [last?, after, List.getLast?_cons_cons]

end Operation

/-- A wait that steps the operation on with each event that answers it, on kernels that are as they
should be. -/
def Reads (operation : Operation Interest σ α) (sound : Kernel → Prop)
    (wait : σ → Interest → Kernel → Report α) : Prop :=
  ∀ state interest kernel delay mask rest, sound kernel →
    kernel.arrivals = ⟨delay, .event mask⟩ :: rest → mask.Answers interest →
    ∃ later : Interest → Kernel, (∀ next, sound (later next) ∧ (later next).arrivals = rest) ∧
      (wait state interest kernel).course =
        operation.follow state (some mask.sides) fun state next =>
          (wait state next (later next)).course

theorem Operation.Answered.exists_course {operation : Operation Interest σ α} {state : σ}
    {ready : Option Readiness} {arrivals : List Arrival}
    (answered : operation.Answered state ready arrivals) :
    ∃ course, operation.Concludes state course ∧ (∃ told, course.told = ready :: told) ∧
      ∀ (sound : Kernel → Prop) (wait : σ → Interest → Kernel → Report α),
        Reads operation sound wait → ∀ later : Interest → Kernel,
        (∀ next, sound (later next) ∧ (later next).arrivals = arrivals) →
        (operation.follow state ready fun state next => (wait state next (later next)).course) =
          course := by
  -- A wait has its own kernel for each request; all that counts is which events are still to come.
  induction answered with
  | @ended state ready arrivals ends =>
    rcases step : operation.step state ready with ⟨later, error | request | value⟩
    next =>
      refine ⟨⟨[ready], .failed error⟩, .inr ⟨error, ?_, rfl⟩, ⟨[], rfl⟩, ?_⟩
      next => simp [last?, after, step]
      next => simp [follow, step]
    next => exact absurd (congrArg Prod.snd step) (ends request)
    next =>
      refine ⟨⟨[ready], .finished value⟩, .inl ⟨value, ?_, rfl⟩, ⟨[], rfl⟩, ?_⟩
      next => simp [last?, after, step]
      next => simp [follow, step]
  | @pending state later ready interest delay mask rest asks answers goes ih =>
    obtain ⟨course, concludes, ⟨told, begins⟩, same⟩ := ih
    refine ⟨⟨ready :: course.told, course.outcome⟩, ?_, ⟨course.told, rfl⟩, ?_⟩
    next =>
      have last : operation.last? state (ready :: course.told) =
          operation.last? later course.told := by
        rw [begins, last_cons, asks]
      simpa [Concludes, last] using concludes
    next =>
      intro sound wait reads kernels sounds
      obtain ⟨good, arrivals⟩ := sounds interest
      obtain ⟨laters, goods, heard⟩ := reads later interest _ delay mask rest good arrivals answers
      rw [follow, asks]
      simp only [heard, same sound wait reads laters goods]

theorem Report.course_advance {kernel : Kernel} {call : ρ → Control}
    (accepted : ∀ request, kernel.answer (call request) = 0) (operation : Operation ρ σ α)
    (again : σ → ρ → Kernel → Report α) (state : σ) (ready : Option Readiness) :
    (operation.advance call again state ready kernel).course =
      operation.follow state ready fun later request =>
        (again later request (kernel.control (call request))).course := by
  rw [Operation.advance, course_resume]
  simp only [course_called (accepted _)]

theorem Kernel.poll_event {kernel : Kernel} {delay : Nat} {mask : EventMask} {rest : List Arrival}
    (arrivals : kernel.arrivals = ⟨delay, .event mask⟩ :: rest) :
    kernel.poll none = some (some (.event mask), kernel.deliver ⟨delay, .event mask⟩ rest) := by
  simp [poll, arrivals]

variable {operation : Operation Interest σ α} {descriptor : Descriptor}

theorem Multiplexed.wait_reads (valid : 0 ≤ descriptor) :
    Reads operation (Kernel.Serves · [descriptor]) fun state interest kernel =>
      wait operation (Target.mk descriptor) .retry none state interest kernel.clock kernel := by
  intro state interest kernel delay mask rest serves arrivals answers
  obtain ⟨flags, -, -, some, meets⟩ := answers.readings
  have polled := Kernel.poll_event arrivals
  obtain ⟨removed, cleared⟩ := (serves.poll polled).remove valid
  refine ⟨_, fun next => ⟨(cleared.add valid ⟨next, false⟩).2, rfl⟩, ?_⟩
  rw [← flags] at some meets ⊢
  dsimp only
  rw [wait_polled rfl polled, react_met _ _ _ _ _ _ some meets]
  refine (Report.course_called removed _).trans ?_
  exact Report.course_advance (fun next => (cleared.add valid ⟨next, false⟩).1) operation _ state _

theorem OneShot.wait_reads (valid : 0 ≤ descriptor) :
    Reads operation (Kernel.Serves · [descriptor]) (wait operation descriptor none) := by
  intro state interest kernel delay mask rest serves arrivals answers
  obtain ⟨-, sides, -, some, meets⟩ := answers.readings
  have polled := Kernel.poll_event arrivals
  have registered := serves.poll polled
  refine ⟨_, fun next => ⟨(registered.modify valid ⟨next, true⟩).2, rfl⟩, ?_⟩
  rw [← sides] at some meets ⊢
  rw [wait_met polled some meets]
  exact Report.course_advance (fun next => (registered.modify valid ⟨next, true⟩).1) operation _
    state _

theorem Reactor.wait_reads (valid : 0 ≤ descriptor) :
    Reads operation (Kernel.Serves · [descriptor]) fun state interest kernel =>
      wait operation (Target.mk descriptor) none none state interest kernel.clock kernel := by
  intro state interest kernel delay mask rest serves arrivals answers
  obtain ⟨-, -, within, some, -⟩ := answers.readings
  have cleared := ((serves.poll (Kernel.poll_event arrivals)).remove valid).2
  have inTime : (limit? none none kernel.clock).filter
      (·.1 ≤ 1000 * (kernel.deliver ⟨delay, .event mask⟩ rest).clock) = none := rfl
  refine ⟨_, fun next => ⟨(cleared.add valid ⟨next, false⟩).2, rfl⟩, ?_⟩
  have heeded :
      ¬ (satisfied (Target.mk descriptor interest).interest (.event mask)).isEmpty = true := by
    rwa [satisfied, within]
  rw [← within]
  dsimp only
  rw [wait_arrival arrivals, inTime]
  dsimp only
  rw [react_met _ _ _ _ _ heeded]
  exact Report.course_advance (fun next => (cleared.add valid ⟨next, false⟩).1) operation _ state _

/-- If every request is answered by what it asked for, whether by part or all of it, then all three
waits on one socket tell the operation the same, one after the other, and end with the value or the
error that it returns. -/
theorem waits_agree (operation : Operation Interest σ α) (descriptor : Descriptor)
    (valid : 0 ≤ descriptor) (state : σ) (kernel : Kernel) (created : kernel.creation = 0)
    (serves : kernel.Serves []) (answered : operation.Answered state none kernel.arrivals) :
    ∃ course, operation.Concludes state course ∧
      (∀ strategy : Strategy,
        (strategy.run operation descriptor none state kernel).course = course) ∧
      (Reactor.run operation descriptor none none state kernel).course = course := by
  obtain ⟨course, concludes, -, same⟩ := answered.exists_course
  have accepted (watch : Interest → Watch) (interest : Interest) :
      kernel.answer (.add descriptor (watch interest)) = 0 := (serves.add valid _).1
  have registered (watch : Interest → Watch) (interest : Interest) :
      (kernel.control (.add descriptor (watch interest))).Serves [descriptor] ∧
        (kernel.control (.add descriptor (watch interest))).arrivals = kernel.arrivals :=
    ⟨(serves.add valid _).2, rfl⟩
  refine ⟨course, concludes, fun strategy => ?_, ?_⟩
  next =>
    cases strategy with
    | multiplexed =>
      rw [← same _ _ (Multiplexed.wait_reads valid) _ (registered (⟨·, false⟩))]
      refine (congrArg Report.course
        ((Wait.multiplexed descriptor none).run_created _ _ created)).trans ?_
      exact Report.course_advance (accepted (⟨·, false⟩)) operation _ state none
    | oneShot =>
      rw [← same _ _ (OneShot.wait_reads valid) _ (registered (⟨·, true⟩))]
      refine (congrArg Report.course
        ((Wait.oneShot descriptor none).run_created _ _ created)).trans ?_
      exact Report.course_advance (accepted (⟨·, true⟩)) operation _ state none
  next =>
    rw [← same _ _ (Reactor.wait_reads valid) _ (registered (⟨·, false⟩))]
    exact Report.course_advance (accepted (⟨·, false⟩)) operation _ state none

theorem waits_agree_both :
    let operation := Operation.scripted Interest Nat
    let steps : List (Except Error (Step Interest Nat)) :=
      [.ok (.pending .both), .ok (.pending .both), .ok (.pending .read), .error .timeout]
    let kernel := Kernel.fresh [⟨700, .event EventMask.output⟩,
      ⟨0, .event (EventMask.input ||| EventMask.output)⟩, ⟨9000, .event EventMask.input⟩]
    let course : Course Nat := ⟨[none, some ⟨false, true⟩, some ⟨true, true⟩, some ⟨true, false⟩],
      .failed .timeout⟩
    (Strategy.multiplexed.run operation 3 none steps kernel).course = course ∧
    (Strategy.oneShot.run operation 3 none steps kernel).course = course ∧
    (Reactor.run operation 3 none none steps kernel).course = course := by
  intro operation steps kernel course
  have answered : operation.Answered steps none kernel.arrivals :=
    .pending rfl (by decide) (.pending rfl (by decide) (.pending rfl (by decide)
      (.ended (by simp [operation, Operation.scripted]))))
  obtain ⟨common, -, blocking, suspended⟩ := waits_agree operation 3 (by decide) steps kernel rfl
    ⟨rfl, by simp [kernel, Kernel.fresh]⟩ answered
  have told : (Strategy.multiplexed.run operation 3 none steps kernel).course = course := by cbv
  have same : common = course := (blocking .multiplexed).symm.trans told
  exact ⟨told, same ▸ blocking .oneShot, same ▸ suspended⟩

end DatabaseClient.Socket
