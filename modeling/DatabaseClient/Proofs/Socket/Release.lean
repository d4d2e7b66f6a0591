import DatabaseClient.Proofs.Socket.Log

set_option autoImplicit false

namespace DatabaseClient.Socket

namespace Kernel

/-- No removal is made to fail. The calls of a suspended run, as those of an attempt at a
connection, are additions and removals in turn, so that every second one is a removal. -/
def Releases (kernel : Kernel) : Prop := ∀ n, kernel.faults.getD (2 * n + 1) 0 = 0

structure Removable (kernel : Kernel) (descriptor : Descriptor) : Prop where
  valid : 0 ≤ descriptor
  registered : descriptor ∈ kernel.registered
  releases : ∀ n, kernel.faults.getD (2 * n) 0 = 0

theorem Removable.removed {kernel : Kernel} {descriptor : Descriptor}
    (removable : kernel.Removable descriptor) :
    kernel.answer (.remove descriptor) = 0 ∧ (kernel.control (.remove descriptor)).Releases := by
  constructor
  next =>
    rw [answer_of_head (removable.releases 0)]
    simp [verdict, removable.registered, Int.not_lt.mpr removable.valid]
  next =>
    intro n
    rw [getD_faults_control]
    exact removable.releases (n + 1)

theorem Releases.added {kernel : Kernel} (releases : kernel.Releases) {descriptor : Descriptor}
    {watch : Watch} (accepted : kernel.answer (.add descriptor watch) = 0) :
    (kernel.control (.add descriptor watch)).Removable descriptor := by
  refine ⟨Int.not_lt.mp fun invalid => ?_, by simp [registered_add accepted], fun n => ?_⟩
  next =>
    -- What was added belongs to a file, so that it can be removed.
    have verdict := verdict_of_accepted accepted
    simp [Kernel.verdict, invalid, Errno.badDescriptor] at verdict
  next =>
    rw [getD_faults_control]
    exact releases n

end Kernel

variable {ρ σ α : Type}

def releasing (found : List Descriptor) (faults : List Nat) : Rules α where
  entry log
    | .step _ _ => registrations log = []
    | .control (.add descriptor _) errno =>
      descriptor ∉ found → errno = 0 ∨ errno ∈ faults ∨ descriptor < 0 ∧ errno = Errno.badDescriptor
    | .control _ _ | .poll _ _ | .stuck => True
  ending _ outcome kernel := outcome ≠ .stuck → kernel.registered = found

structure Idle (found : List Descriptor) (faults : List Nat) (past : List Entry)
    (kernel : Kernel) : Prop where
  bare : registrations past = []
  registered : kernel.registered = found
  releases : kernel.Releases
  within : kernel.faults ⊆ faults

structure Holds (found : List Descriptor) (faults : List Nat) (descriptor : Descriptor)
    (past : List Entry) (kernel : Kernel) : Prop where
  alone : ∃ watch, registrations past = [(descriptor, watch)]
  valid : 0 ≤ descriptor
  registered : kernel.registered = descriptor :: found
  releases : ∀ n, kernel.faults.getD (2 * n) 0 = 0
  within : kernel.faults ⊆ faults

variable {found : List Descriptor} {faults : List Nat} {descriptor : Descriptor}
  {past : List Entry} {kernel : Kernel}

theorem Holds.removed (holds : Holds found faults descriptor past kernel) :
    Idle found faults
      (past ++ [.control (.remove descriptor) (kernel.answer (.remove descriptor))])
      (kernel.control (.remove descriptor)) := by
  have removable : kernel.Removable descriptor :=
    ⟨holds.valid, by simp [holds.registered], holds.releases⟩
  obtain ⟨accepted, releases⟩ := removable.removed
  refine ⟨?_, ?_, releases, ?_⟩
  next =>
    obtain ⟨watch, alone⟩ := holds.alone
    rw [accepted, registrations_append, alone]
    simp [Entry.register]
  next => simp [Kernel.control, accepted, holds.registered]
  next => exact fun errno member => holds.within (List.mem_of_mem_drop member)

theorem Idle.step (idle : Idle found faults past kernel) (clock : Nat) (ready : Option Readiness) :
    Idle found faults (past ++ [.step clock ready]) kernel :=
  ⟨by rw [registrations_append, idle.bare]; rfl, idle.registered, idle.releases, idle.within⟩

theorem Idle.added (idle : Idle found faults past kernel) (watch : Watch) {next : Report α}
    (goes : Holds found faults descriptor (past ++ [.control (.add descriptor watch) 0])
        (kernel.control (.add descriptor watch)) →
      next.Keeps (releasing found faults) (past ++ [.control (.add descriptor watch) 0])) :
    (Report.called kernel (.add descriptor watch) next).Keeps (releasing found faults) past := by
  refine .called ?_ (fun accepted => ?_) (fun refused _ => ?_)
  next =>
    intro absent
    rcases kernel.answer_cases (.add descriptor watch) with verdict | scripted
    next =>
      rw [verdict]
      by_cases valid : descriptor < 0 <;>
        simp [Kernel.verdict, valid, idle.registered, absent]
    next => exact .inr (.inl (idle.within scripted))
  next =>
    have removable := idle.releases.added accepted
    refine goes ⟨⟨watch, ?_⟩, removable.valid, ?_, removable.releases, ?_⟩
    next => rw [registrations_append, idle.bare]; rfl
    next => rw [Kernel.registered_add accepted, idle.registered]
    next => exact fun errno member => idle.within (List.mem_of_mem_drop member)
  next => rw [Kernel.registered_refused refused, idle.registered]

theorem Idle.advance {operation : Operation ρ σ α} {target : ρ → Target} {state : σ}
    {ready : Option Readiness} {again : σ → ρ → Kernel → Report α}
    (idle : Idle found faults past kernel)
    (goes : ∀ later request, Holds found faults (target request).descriptor
        (past ++ [.step kernel.clock ready] ++ [.control (target request).add 0])
        (kernel.control (target request).add) →
      (again later request (kernel.control (target request).add)).Keeps (releasing found faults)
        (past ++ [.step kernel.clock ready] ++ [.control (target request).add 0])) :
    (operation.advance (fun request => (target request).add) again state ready kernel).Keeps
      (releasing found faults) past :=
  .stepped idle.bare (fun _ _ _ _ => idle.registered) (fun _ _ _ _ => idle.registered)
    fun later request _ => (idle.step _ _).added _ (goes later request)

theorem Holds.deliver (holds : Holds found faults descriptor past kernel) (first : Arrival)
    (rest : List Arrival) : Holds found faults descriptor past (kernel.deliver first rest) :=
  ⟨holds.alone, holds.valid, holds.registered, holds.releases, holds.within⟩

theorem Holds.abandoned {target : Target} (cause : Reactor.Cause)
    (holds : Holds found faults target.descriptor past kernel) :
    (Reactor.abandon target cause kernel : Report α).Keeps (releasing found faults) past :=
  .log trivial (.end fun _ => holds.removed.registered)

theorem Reactor.wait_releasing (operation : Operation ρ σ α) (target : ρ → Target)
    (found : List Descriptor) (faults : List Nat) (timeout : Option Duration)
    (cancel : Option Nat) (state : σ) (request : ρ) (start : Nat) (kernel : Kernel) :
    ∀ past, Holds found faults (target request).descriptor past kernel →
    (wait operation target timeout cancel state request start kernel).Keeps
      (releasing found faults) past := by
  induction state, request, start, kernel using wait_induction with
  | stuck => exact fun past holds => .stuck trivial fun going => absurd rfl going
  | abandoned => exact fun past holds => holds.abandoned _
  | overdue => exact fun past holds => holds.abandoned _
  | passed _ _ _ ih => exact fun past holds => ih past (holds.deliver _ _)
  | met _ _ _ ih =>
    intro past holds
    refine .log trivial ((holds.deliver _ _).removed.advance fun state request holds => ?_)
    exact ih state request _ holds

theorem Wait.run_releasing {wait : Wait ρ} (suspends : wait.Suspends)
    (operation : Operation ρ σ α) (state : σ) {kernel : Kernel} (releases : kernel.Releases) :
    (wait.run operation state kernel).Keeps (releasing kernel.registered kernel.faults) [] := by
  have idle : Idle kernel.registered kernel.faults [] kernel :=
    ⟨rfl, rfl, releases, List.Subset.refl _⟩
  cases wait with
  | suspended | connectingSuspended =>
    exact idle.advance fun _ _ => Reactor.wait_releasing _ _ _ _ _ _ _ _ _ _ _
  | multiplexed | oneShot | connecting => exact suspends.elim

/-- A run on the reactor, with the events and the answers that await it. Its removals are not made
to fail. -/
structure Job where
  {ρ σ α : Type}
  wait : Wait ρ
  suspends : wait.Suspends
  operation : Operation ρ σ α
  state : σ
  kernel : Kernel
  releases : kernel.Releases

namespace Job

def report (job : Job) (registered : List Descriptor) : Report job.α :=
  job.wait.run job.operation job.state { job.kernel with registered }

def leave (registered : List Descriptor) (job : Job) : List Descriptor :=
  (job.report registered).kernel.registered

def Ended (registered : List Descriptor) : List Job → Prop
  | [] => True
  | job :: rest => (job.report registered).outcome ≠ .stuck ∧ Ended (job.leave registered) rest

theorem report_releasing (job : Job) (registered : List Descriptor) :
    (job.report registered).Keeps (releasing registered job.kernel.faults) [] :=
  Wait.run_releasing job.suspends job.operation job.state
    (show { job.kernel with registered }.Releases from job.releases)

theorem foldl_leave {registered : List Descriptor} {jobs : List Job}
    (ended : Ended registered jobs) : jobs.foldl leave registered = registered := by
  induction jobs with
  | nil => rfl
  | cons job rest ih =>
    obtain ⟨ends, others⟩ := ended
    have left : job.leave registered = registered := (job.report_releasing registered).ending ends
    rw [left] at others
    rw [List.foldl_cons, left]
    exact ih others

/-- After any number of runs on a reactor, finished, failed or dropped, its registrations are those
it began with, and the next run leaves the same. Meanwhile, the operation is stepped only while its
run holds nothing; and what was not registered at the beginning can be registered again, unless a
failure is imposed on it or no file has such a descriptor. -/
theorem report_releases (registered : List Descriptor) (jobs : List Job)
    (ended : Ended registered jobs) (job : Job) :
    let held := jobs.foldl leave registered
    let report := job.report held
    held = registered ∧
    (report.outcome ≠ .stuck → report.kernel.registered = held) ∧
    (∀ before clock ready after, report.trace = before ++ .step clock ready :: after →
      registrations before = []) ∧
    ∀ descriptor watch errno, .control (.add descriptor watch) errno ∈ report.trace →
      descriptor ∉ registered →
      errno = 0 ∨ errno ∈ job.kernel.faults ∨ descriptor < 0 ∧ errno = Errno.badDescriptor := by
  intro held report
  have same : held = registered := foldl_leave ended
  have keeps : report.Keeps (releasing held job.kernel.faults) [] := job.report_releasing held
  refine ⟨same, keeps.ending, ?_, ?_⟩
  next => exact fun before clock ready after trace => keeps.entry before _ after trace
  next =>
    intro descriptor watch errno called absent
    obtain ⟨before, after, trace⟩ := List.append_of_mem called
    exact keeps.entry before _ after trace (same ▸ absent)

theorem report_releases_dropped :
    let dropped : Job :=
      { wait := .suspended 3 none (some 5)
        suspends := by trivial
        operation := .scripted Interest Nat
        state := [.ok (.pending .read)]
        kernel := .fresh []
        releases := fun n => rfl }
    let again : Job :=
      { wait := .connectingSuspended (some ⟨5000000000, by decide⟩) none
        suspends := by trivial
        operation := .scripted Target Nat
        state := [.ok (.pending ⟨3, .read⟩), .ok (.pending ⟨4, .write⟩), .ok (.pending ⟨3, .both⟩),
          .ok (.finished 7)]
        kernel := .fresh [⟨0, .event EventMask.input⟩, ⟨20, .event EventMask.output⟩,
          ⟨5, .event EventMask.hangUp⟩]
        releases := fun n => rfl }
    (dropped.report []).outcome = .cancelled ∧
    (again.report (dropped.leave [])).outcome = .finished (7 : Nat) ∧
    (again.report (dropped.leave [])).kernel.registered = dropped.leave [] ∧
    dropped.leave [] = [] := by
  intro dropped again
  have cancelled : (dropped.report []).outcome = .cancelled := by cbv
  have finished : (again.report (dropped.leave [])).outcome = .finished (7 : Nat) := by
    change (Reactor.start _ (fun target => target) _ _ _ _).outcome = _
    cbv
  have ended : Ended [] [dropped] := ⟨by rw [cancelled]; simp, trivial⟩
  obtain ⟨same, left, -, -⟩ := report_releases [] [dropped] ended again
  exact ⟨cancelled, finished, left (by rw [List.foldl_cons, List.foldl_nil, finished]; simp), same⟩

end Job

end DatabaseClient.Socket
