import Mathlib.Data.List.Basic
import DatabaseClient.Proofs.Socket.Release

set_option autoImplicit false

namespace DatabaseClient.Socket

theorem pollLimit_mono {nanos more : Nat} (order : nanos ≤ more) :
    pollLimit nanos ≤ pollLimit more := by
  have rounded : (nanos + 999999) / 1000000 ≤ (more + 999999) / 1000000 :=
    Nat.div_le_div_right (by omega)
  simp only [pollLimit]
  omega

namespace Kernel

theorem poll_longer {kernel later : Kernel} {ms : Nat} {limit : Option Nat} {signal : Signal}
    (polled : kernel.poll (some ms) = some (some signal, later))
    (longer : ∀ more, limit = some more → ms ≤ more) :
    kernel.poll limit = some (some signal, later) := by
  rcases poll_cases polled with ⟨first, rest, arrivals, due, same, rfl⟩ | ⟨_, -, -, -, none, -⟩
  next =>
    obtain rfl := Option.some.inj same
    replace due := due ms rfl
    cases limit with
    | none => simp [poll, arrivals]
    | some more =>
      have within : first.delay ≤ 1000 * more := by
        have := longer more rfl
        omega
      simp [poll, arrivals, within]
  next => simp at none

theorem poll_eq_none {kernel : Kernel} {ms : Nat} (stuck : kernel.poll (some ms) = none) :
    kernel.patience = 0 := by
  have lasted (stuck : kernel.runOut ms = none) : kernel.patience = 0 := by
    unfold runOut at stuck
    split at stuck
    next none => exact none
    next => simp at stuck
  unfold poll at stuck
  cases arrivals : kernel.arrivals with
  | nil => exact lasted (by simpa [arrivals] using stuck)
  | cons first rest =>
    rw [arrivals] at stuck
    dsimp only at stuck
    split at stuck
    next => simp at stuck
    next => exact lasted stuck

theorem patience_poll {kernel later : Kernel} {limit : Option Nat} {signal : Signal}
    (polled : kernel.poll limit = some (some signal, later)) :
    later.patience = kernel.patience := by
  obtain ⟨first, rest, -, -, rfl⟩ := poll_some polled
  rfl

theorem Removable.poll {kernel later : Kernel} {descriptor : Descriptor}
    (removable : kernel.Removable descriptor) {limit : Option Nat} {signal : Option Signal}
    (polled : kernel.poll limit = some (signal, later)) : later.Removable descriptor := by
  obtain ⟨registered, faults⟩ := registered_poll polled
  exact ⟨removable.valid, by rw [registered]; exact removable.registered,
    by rw [faults]; exact removable.releases⟩

end Kernel

def Entry.limitless : Entry → Entry
  | .poll _ signal => .poll none signal
  | entry => entry

@[simp] theorem Entry.told_limitless (entry : Entry) : entry.limitless.told? = entry.told? := by
  cases entry <;> rfl

theorem told_limitless (log : List Entry) : told (log.map Entry.limitless) = told log := by
  rw [told, told, List.filterMap_map]
  exact List.filterMap_congr fun entry _ => entry.told_limitless

variable {ρ σ α : Type}

namespace Report

structure Matches (long short : Report α) : Prop where
  trace : long.trace.map Entry.limitless = short.trace.map Entry.limitless
  outcome : long.outcome = short.outcome
  kernel : long.kernel = short.kernel

theorem Matches.refl (report : Report α) : report.Matches report := ⟨rfl, rfl, rfl⟩

theorem Matches.told {long short : Report α} (same : long.Matches short) :
    told long.trace = told short.trace := by
  rw [← told_limitless, same.trace, told_limitless]

end Report

/-- The wait ran out of time while its operation was waiting, or it does not end. -/
def Lapsed (operation : Operation ρ σ α) (initial : σ) (past : List Entry) (report : Report α) :
    Prop :=
  (report.outcome = .failed .timeout ∧
    ∃ request, operation.last? initial (told (past ++ report.trace)) =
      some (.ok (.pending request))) ∨
  report.outcome = .stuck

/-- Unless a deadline is out of the clock's reach, the longer wait matches the shorter one, or goes
on from where that one gave up. -/
def Outlasts (operation : Operation ρ σ α) (initial : σ) (past : List Entry)
    (short long : Report α) : Prop :=
  short.outcome ≠ .aborted .deadlineOverflow → long.outcome ≠ .aborted .deadlineOverflow →
    long.Matches short ∨
      (Lapsed operation initial past short ∧ told short.trace <+: told long.trace)

namespace Outlasts

variable {operation : Operation ρ σ α} {initial : σ} {past : List Entry}
  {short long : Report α}

theorem refl (report : Report α) : Outlasts operation initial past report report :=
  fun _ _ => .inl (.refl report)

theorem log {entry other : Entry} (same : other.limitless = entry.limitless)
    (outlasts : Outlasts operation initial (past ++ [entry]) short long) :
    Outlasts operation initial past (.log entry short) (.log other long) := by
  intro shortReached longReached
  rcases outlasts shortReached longReached with ⟨trace, outcome, kernel⟩ | ⟨lapsed, earlier⟩
  next => exact .inl ⟨by simp [same, trace], outcome, kernel⟩
  next =>
    refine .inr ⟨by simpa [Lapsed] using lapsed, ?_⟩
    have heard : other.told? = entry.told? := by
      rw [← other.told_limitless, same, entry.told_limitless]
    cases ready : entry.told? <;> simpa [told, heard, ready] using earlier

theorem called {kernel : Kernel} {call : Control}
    (outlasts : kernel.answer call = 0 →
      Outlasts operation initial (past ++ [.control call 0]) short long) :
    Outlasts operation initial past (.called kernel call short)
      (.called kernel call long) := by
  refine log rfl ?_
  split
  next accepted => exact accepted ▸ outlasts accepted
  next => exact refl _

theorem resume {state : σ} {ready : Option Readiness} {kernel : Kernel}
    {next others : σ → ρ → Report α} (reached : operation.after initial (told past) = state)
    (pending : ∀ later request,
      operation.Asks initial (past ++ [.step kernel.clock ready]) later request →
      Outlasts operation initial (past ++ [.step kernel.clock ready])
        (next later request) (others later request)) :
    Outlasts operation initial past (operation.resume state ready kernel next)
      (operation.resume state ready kernel others) := by
  refine log rfl ?_
  rcases step : operation.step state ready with ⟨later, error | request | value⟩
  next => exact refl _
  next => exact pending later request (.stepped reached step _)
  next => exact refl _

theorem advance {call : ρ → Control} {again another : σ → ρ → Kernel → Report α} {state : σ}
    {ready : Option Readiness} {kernel : Kernel}
    (reached : operation.after initial (told past) = state)
    (goes : ∀ later request, kernel.answer (call request) = 0 →
      operation.Asks initial
        (past ++ [.step kernel.clock ready] ++ [.control (call request) 0]) later request →
      Outlasts operation initial
        (past ++ [.step kernel.clock ready] ++ [.control (call request) 0])
        (again later request (kernel.control (call request)))
        (another later request (kernel.control (call request)))) :
    Outlasts operation initial past (operation.advance call again state ready kernel)
      (operation.advance call another state ready kernel) :=
  resume reached fun later request asks =>
    called fun accepted => goes later request accepted (asks.silent _ rfl)

end Outlasts

namespace Multiplexed

theorem limitAt_mono {first : Duration} {second : Option Duration}
    (longer : ∀ d, second = some d → first.nanos ≤ d.nanos) (start now more : Nat)
    (limit : limitAt second start now = some more) :
    pollLimit (first.nanos - 1000 * (now - start)) ≤ more := by
  obtain ⟨d, rfl, rfl⟩ := Option.map_eq_some_iff.mp limit
  have order := longer d rfl
  exact pollLimit_mono (by omega)

section Comparison

variable {operation : Operation ρ σ α} {initial : σ} {target : ρ → Target} {first : Duration}
  {second : Option Duration}

theorem polled_outlasts (longer : ∀ d, second = some d → first.nanos ≤ d.nanos) {state : σ}
    {request : ρ} {start : Nat} {kernel later : Kernel} {signal : Signal}
    (polled : kernel.poll (limitAt (some first) start kernel.clock) = some (some signal, later))
    {past : List Entry} {short : Report α}
    (reacts : Outlasts operation initial
      (past ++ [.poll (limitAt (some first) start kernel.clock) (some signal)]) short
      (react operation target .timeout state request start
        (wait operation target .timeout second) later (some signal))) :
    Outlasts operation initial past
      (.log (.poll (limitAt (some first) start kernel.clock) (some signal)) short)
      (wait operation target .timeout second state request start kernel) := by
  by_cases reached : second.all (Kernel.reaches start) = true
  next =>
    rw [wait_polled reached (Kernel.poll_longer polled (limitAt_mono longer start kernel.clock))]
    exact .log rfl reacts
  next =>
    rw [wait_unreached reached]
    exact fun _ reached => absurd rfl reached

theorem wait_outlasts (longer : ∀ d, second = some d → first.nanos ≤ d.nanos) (state : σ)
    (request : ρ) (start : Nat) (kernel : Kernel) :
    ∀ past, operation.Asks initial past state request →
      kernel.Removable (target request).descriptor →
      Outlasts operation initial past
        (wait operation target .timeout (some first) state request start kernel)
        (wait operation target .timeout second state request start kernel) := by
  induction state, request, start, kernel using wait_induction with
  | unreached => exact fun _ _ _ overflow => absurd rfl overflow
  | stuck => exact fun _ _ _ _ _ => .inr ⟨.inr rfl, List.nil_prefix⟩
  | retried => contradiction
  | @lapsed state request start kernel later _ _ polled =>
    intro past asks removable _ _
    have accepted : later.answer (target request).remove = 0 := (removable.poll polled).removed.1
    have pending :=
      (asks.silent (.poll (limitAt (some first) start kernel.clock) none) rfl).silent
        (.control (target request).remove 0) rfl
    have trace : (Report.called later (target request).remove
        (.ending (.failed .timeout) (later.control (target request).remove)) : Report α).trace =
          [.control (target request).remove 0] := by
      simp [Report.called, accepted, Report.ending]
    refine .inr ⟨.inl ⟨?_, request, ?_⟩, ?_⟩
    next => simp [Report.called, accepted, Report.ending]
    next => simpa [trace] using pending.request
    next =>
      rw [Report.trace_log, trace]
      exact List.nil_prefix
  | interrupted _ polled ih =>
    intro past asks removable
    refine polled_outlasts longer polled ?_
    rw [react_interrupted]
    exact ih _ (asks.silent _ rfl) (removable.poll polled)
  | failed _ polled other =>
    intro past asks removable
    refine polled_outlasts longer polled ?_
    rw [react_failed _ _ _ _ _ _ other]
    exact .refl _
  | unheeded _ polled empty =>
    intro past asks removable
    refine polled_outlasts longer polled ?_
    rw [react_unheeded _ _ _ _ _ _ empty]
    exact .refl _
  | met _ polled nonempty meets ih =>
    intro past asks removable
    refine polled_outlasts longer polled ?_
    rw [react_met _ _ _ _ _ _ nonempty meets]
    refine .called fun _ => .advance ((asks.silent _ rfl).silent _ rfl).state ?_
    intro state request accepted asks
    exact ih state request _ asks ((removable.poll polled).removed.2.added accepted)
  | mismatched _ polled nonempty apart =>
    intro past asks removable
    refine polled_outlasts longer polled ?_
    rw [react_mismatched _ _ _ _ _ _ nonempty apart]
    exact .refl _

end Comparison

def ending : Rules α where
  entry _ _ := True
  ending _ outcome _ := outcome ≠ .stuck

theorem advance_ends {operation : Operation ρ σ α} {call : ρ → Control}
    {again : σ → ρ → Kernel → Report α} {state : σ} {ready : Option Readiness} {kernel : Kernel}
    {past : List Entry}
    (goes : ∀ later request, (again later request (kernel.control (call request))).Keeps ending
      (past ++ [.step kernel.clock ready] ++ [.control (call request) 0])) :
    (operation.advance call again state ready kernel).Keeps ending past :=
  .stepped trivial (by simp [ending]) (by simp [ending]) fun later request _ =>
    .called trivial (fun _ => goes later request) (by simp [ending])

theorem wait_ends (operation : Operation ρ σ α) (target : ρ → Target) (timeout : Duration)
    (state : σ) (request : ρ) (start : Nat) (kernel : Kernel) :
    ∀ past, kernel.patience ≠ 0 →
      (wait operation target .timeout (some timeout) state request start kernel).Keeps ending
        past := by
  induction state, request, start, kernel using wait_induction with
  | unreached => exact fun past _ => .end (by simp [ending])
  | stuck _ stuck => exact fun past patient => absurd (Kernel.poll_eq_none stuck) patient
  | retried => contradiction
  | lapsed =>
    intro past patient
    exact .log trivial (.called trivial (fun _ => .end (by simp [ending])) (by simp [ending]))
  | interrupted _ polled ih =>
    exact fun past patient => .log trivial (ih _ (Kernel.patience_poll polled ▸ patient))
  | failed => exact fun past _ => .log trivial (.end (by simp [ending]))
  | unheeded => exact fun past _ => .log trivial (.end (by simp [ending]))
  | met _ polled _ _ ih =>
    intro past patient
    refine .log trivial (.called trivial (fun _ => ?_) (by simp [ending]))
    exact advance_ends fun state request =>
      ih state request _ (Kernel.patience_poll polled ▸ patient)
  | mismatched =>
    intro past _
    exact .log trivial (.called trivial (fun _ => .end (by simp [ending])) (by simp [ending]))

section Connection

variable {operation : Operation Target σ α} {state : σ} {kernel : Kernel} {first : Duration}

theorem limited_of_pos (positive : 0 < first.nanos) :
    (some first).filter (!·.isZero) = some first := by
  simp [Duration.isZero, Nat.ne_of_gt positive]

theorem outlasts_connect (releases : kernel.Releases) (positive : 0 < first.nanos)
    {second : Option Duration}
    (longer : ∀ d, second = some d → d.nanos = 0 ∨ first.nanos ≤ d.nanos) :
    Outlasts operation state [] (connect operation (some first) state kernel)
      (connect operation second state kernel) := by
  have bounded : ∀ d, second.filter (!·.isZero) = some d → first.nanos ≤ d.nanos := by
    intro d limit
    obtain ⟨given, nonzero⟩ := Option.filter_eq_some_iff.mp limit
    exact (longer d given).resolve_left (by simpa [Duration.isZero] using nonzero)
  simp only [connect, limited_of_pos positive]
  refine .resume rfl fun later request asks => ?_
  unfold Report.created
  split
  next =>
    exact .called fun accepted => wait_outlasts bounded later request _ _ _ (asks.silent _ rfl)
      (releases.added accepted)
  next => exact .refl _

theorem connect_cases (positive : 0 < first.nanos) :
    connect operation (some first) state kernel =
      operation.advance (fun target => (id target).add)
        (fun state target kernel =>
          wait operation id .timeout (some first) state target kernel.clock kernel)
        state none kernel ∨
    kernel.creation ≠ 0 ∧ connect operation (some first) state kernel =
      operation.resume state none kernel fun _ _ => .osFailure kernel.creation kernel := by
  have again : (Wait.connecting (some first)).again operation = fun state target kernel =>
      wait operation id .timeout (some first) state target kernel.clock kernel := by
    funext state target kernel
    simp only [Wait.again, limited_of_pos positive]
  have cases := (Wait.connecting (some first)).run_cases operation state kernel
  rwa [again] at cases

theorem connect_ends (positive : 0 < first.nanos) (patient : kernel.patience ≠ 0) :
    (connect operation (some first) state kernel).outcome ≠ .stuck := by
  have keeps : (connect operation (some first) state kernel).Keeps ending [] := by
    rcases connect_cases positive with begins | ⟨-, refused⟩
    next =>
      rw [begins]
      exact advance_ends fun later request =>
        wait_ends operation id first later request _ _ _ patient
    next =>
      rw [refused]
      exact .stepped trivial (by simp [ending]) (by simp [ending])
        fun _ _ _ => .end (by simp [ending])
  exact keeps.ending

end Connection

def TimedOut (operation : Operation ρ σ α) (initial : σ) (report : Report α) : Prop :=
  report.outcome = .failed .timeout ∧
    operation.last? initial (told report.trace) ≠ some (.error .timeout)

/-- With more time, or without limit, an attempt at a connection that did not run out of its time
goes the same way to the same end and takes as long. One that did is told what it was told before,
and more. With a limit an attempt always ends, if polls do. -/
theorem connect_outlasts (operation : Operation Target σ α) (state : σ) (kernel : Kernel)
    (releases : kernel.Releases) (first : Duration) (positive : 0 < first.nanos)
    (second : Option Duration)
    (longer : ∀ d, second = some d → d.nanos = 0 ∨ first.nanos ≤ d.nanos) :
    let short := connect operation (some first) state kernel
    let long := connect operation second state kernel
    short.outcome ≠ .aborted .deadlineOverflow → long.outcome ≠ .aborted .deadlineOverflow →
    (¬ TimedOut operation state short → short.outcome ≠ .stuck → long.Matches short) ∧
    told short.trace <+: told long.trace ∧ (kernel.patience ≠ 0 → short.outcome ≠ .stuck) := by
  intro short long shortReached longReached
  have outcome : long.Matches short ∨
      (Lapsed operation state [] short ∧ told short.trace <+: told long.trace) :=
    outlasts_connect releases positive longer shortReached longReached
  refine ⟨?_, ?_, connect_ends positive⟩
  next =>
    intro inTime ends
    refine outcome.resolve_right ?_
    rintro ⟨⟨timeout, request, pending⟩ | stuck, -⟩
    next => exact inTime ⟨timeout, by rw [List.nil_append] at pending; simp [pending]⟩
    next => exact ends stuck
  next =>
    rcases outcome with same | ⟨-, earlier⟩
    next => exact same.told.symm ▸ List.prefix_rfl
    next => exact earlier

theorem connect_outlasts_interrupted :
    let operation := Operation.scripted Target Nat
    let steps := [.ok (.pending ⟨3, .read⟩), .ok (.pending ⟨4, .write⟩), .ok (.finished 7)]
    let kernel := Kernel.fresh [⟨700, .failure Errno.interrupted⟩, ⟨1500, .event EventMask.input⟩,
      ⟨9000, .event EventMask.output⟩]
    let brief := connect operation (some ⟨5000000, by decide⟩) steps kernel
    let enough := connect operation (some ⟨10000000, by decide⟩) steps kernel
    let unlimited := connect operation (some ⟨0, by decide⟩) steps kernel
    enough.outcome = .finished 7 ∧ unlimited.Matches enough ∧
    brief.outcome = .failed .timeout ∧ told brief.trace <+: told enough.trace := by
  intro operation steps kernel brief enough unlimited
  have releases : kernel.Releases := fun n => rfl
  have finished : enough.outcome = .finished 7 := by
    change (start _ (fun target => target) _ _ _ _).outcome = _
    cbv
  have timeout : brief.outcome = .failed .timeout := by
    change (start _ (fun target => target) _ _ _ _).outcome = _
    cbv
  have endless : unlimited.outcome = .finished 7 := by
    change (start _ (fun target => target) _ _ _ _).outcome = _
    cbv
  have reached : enough.outcome ≠ .aborted .deadlineOverflow := by rw [finished]; simp
  have briefReached : brief.outcome ≠ .aborted .deadlineOverflow := by rw [timeout]; simp
  have endlessReached : unlimited.outcome ≠ .aborted .deadlineOverflow := by rw [endless]; simp
  have inTime : ¬ TimedOut operation steps enough :=
    fun timedOut => by simpa using finished.symm.trans timedOut.1
  have ends : enough.outcome ≠ .stuck := by rw [finished]; simp
  obtain ⟨same, -, -⟩ := connect_outlasts operation steps kernel releases ⟨10000000, by decide⟩
    (by decide) (some ⟨0, by decide⟩) (by simp) reached endlessReached
  obtain ⟨-, earlier, -⟩ := connect_outlasts operation steps kernel releases ⟨5000000, by decide⟩
    (by decide) (some ⟨10000000, by decide⟩) (by simp) briefReached reached
  exact ⟨finished, same inTime ends, timeout, earlier⟩

end Multiplexed

end DatabaseClient.Socket
