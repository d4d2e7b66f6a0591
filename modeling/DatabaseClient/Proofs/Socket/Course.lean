import Mathlib.Algebra.GroupWithZero.Nat
import DatabaseClient.Socket.Strategy
import DatabaseClient.Proofs.Socket.Polling

/-!
A wait as its operation sees it: the readiness it is told, and how it ends. Beside the waits stands
a reader of the bare signals, to which time does not exist.
-/

set_option autoImplicit false

namespace DatabaseClient.Socket

def Entry.told? : Entry → Option (Option Readiness)
  | .step _ ready => some ready
  | _ => none

def Entry.signal? : Entry → Option Signal
  | .poll _ signal => signal
  | _ => none

structure Course (α : Type) where
  told : List (Option Readiness)
  outcome : Outcome α
deriving DecidableEq

def Report.course {α : Type} (report : Report α) : Course α :=
  ⟨report.trace.filterMap Entry.told?, report.outcome⟩

def uninterrupted (arrivals : List Arrival) : List Signal :=
  (arrivals.map Arrival.signal).filter (· ≠ .failure Errno.interrupted)

structure Reading where
  ready : EventMask → Readiness
  badStatus : Error

def Strategy.reading : Strategy → Reading
  | .multiplexed => ⟨EventMask.byFlag, Multiplexed.badStatus⟩
  | .oneShot => ⟨EventMask.bySide, OneShot.badStatus⟩

variable {σ α : Type}

def Operation.follow {ρ : Type} (operation : Operation ρ σ α) (state : σ)
    (ready : Option Readiness) (next : σ → ρ → Course α) : Course α :=
  let rest : Course α :=
    match operation.step state ready with
    | (_, .error e) => ⟨[], .failed e⟩
    | (_, .ok (.finished value)) => ⟨[], .finished value⟩
    | (later, .ok (.pending request)) => next later request
  ⟨ready :: rest.told, rest.outcome⟩

namespace Reading

variable (reading : Reading) (operation : Operation Interest σ α)

def heed (state : σ) (interest : Interest) (mask : EventMask) (next : σ → Interest → Course α) :
    Course α :=
  let ready := reading.ready mask
  if ready.isEmpty then ⟨[], .failed reading.badStatus⟩
  else if ready.meets interest then operation.follow state (some ready) next
  else ⟨[], .aborted (.mismatch ready interest)⟩

variable {operation} {state : σ} {interest : Interest} {mask : EventMask}
  {next : σ → Interest → Course α}

theorem heed_bad (empty : (reading.ready mask).isEmpty = true) :
    reading.heed operation state interest mask next = ⟨[], .failed reading.badStatus⟩ := by
  simp [heed, empty]

theorem heed_meets (some : ¬ (reading.ready mask).isEmpty = true)
    (meets : (reading.ready mask).meets interest = true) :
    reading.heed operation state interest mask next =
      operation.follow state (.some (reading.ready mask)) next := by
  simp [heed, some, meets]

theorem heed_mismatch (some : ¬ (reading.ready mask).isEmpty = true)
    (apart : ¬ (reading.ready mask).meets interest = true) :
    reading.heed operation state interest mask next =
      ⟨[], .aborted (.mismatch (reading.ready mask) interest)⟩ := by
  simp [heed, some, apart]

variable (operation)

def await (state : σ) (interest : Interest) : List Signal → Course α
  | [] => ⟨[], .stuck⟩
  | .failure errno :: _ => ⟨[], .failed (.io (.os errno))⟩
  | .event mask :: rest =>
    reading.heed operation state interest mask fun state interest => await state interest rest

def timeless (state : σ) (signals : List Signal) : Course α :=
  operation.follow state none fun state interest => reading.await operation state interest signals

end Reading

namespace Report

def Ended (report : Report α) : Prop :=
  report.outcome ≠ .stuck ∧ report.outcome ≠ .aborted .deadlineOverflow

/-- The wait took these arrivals of the kernel and no other time than theirs, and its operation took
this course. -/
structure Tells (report : Report α) (kernel : Kernel) (taken : List Arrival)
    (course : Course α) : Prop where
  course : report.course = course
  arrivals : kernel.arrivals = taken ++ report.kernel.arrivals
  signals : report.trace.filterMap Entry.signal? = taken.map Arrival.signal
  clock : report.kernel.clock = kernel.clock + (taken.map Arrival.delay).sum

variable {report : Report α} {kernel : Kernel} {taken : List Arrival} {course : Course α}

theorem Tells.ending (outcome : Outcome α) (kernel : Kernel) :
    (ending outcome kernel).Tells kernel [] ⟨[], outcome⟩ :=
  ⟨rfl, rfl, rfl, rfl⟩

theorem Tells.control {call : Control} {errno : Nat}
    (tells : report.Tells (kernel.control call) taken course) :
    (log (.control call errno) report).Tells kernel taken course :=
  ⟨tells.course, tells.arrivals, tells.signals, tells.clock⟩

theorem Tells.step {clock : Nat} {ready : Option Readiness}
    (tells : report.Tells kernel taken course) :
    (log (.step clock ready) report).Tells kernel taken
      ⟨ready :: course.told, course.outcome⟩ := by
  obtain ⟨rfl, arrivals, signals, elapsed⟩ := tells
  exact ⟨rfl, arrivals, signals, elapsed⟩

theorem Tells.deliver {first : Arrival} {rest : List Arrival} {limit : Option Nat}
    (arrivals : kernel.arrivals = first :: rest)
    (tells : report.Tells (kernel.deliver first rest) taken course) :
    (log (.poll limit (some first.signal)) report).Tells kernel (first :: taken) course where
  course := tells.course
  arrivals := by
    rw [arrivals]
    exact congrArg (first :: ·) tells.arrivals
  signals := congrArg (first.signal :: ·) tells.signals
  clock := by
    have := tells.clock
    simp only [Kernel.deliver] at this
    simp only [kernel_log, List.map_cons, List.sum_cons]
    omega

theorem Tells.idle {first : Arrival} {time : Nat} {limit : Option Nat}
    (late : ∀ first rest, kernel.arrivals = first :: rest → time < first.delay)
    (tells : report.Tells (kernel.idle time) (first :: taken) course) :
    ∃ first, (log (.poll limit none) report).Tells kernel (first :: taken) course := by
  -- The time that passed is missing from the delay of the event that comes next.
  obtain ⟨course, arrivals, signals, clock⟩ := tells
  cases coming : kernel.arrivals with
  | nil => simp [Kernel.idle, coming] at arrivals
  | cons next others =>
    simp only [Kernel.idle, coming, List.cons_append, List.cons.injEq] at arrivals clock
    obtain ⟨rfl, rfl⟩ := arrivals
    have later := late next _ coming
    refine ⟨next, course, ?_, signals, ?_⟩
    next => simpa using coming
    next =>
      simp only [List.map_cons, List.sum_cons] at clock ⊢
      rw [kernel_log, clock]
      omega

end Report

end DatabaseClient.Socket
