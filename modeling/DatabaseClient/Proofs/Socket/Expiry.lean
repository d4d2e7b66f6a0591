import DatabaseClient.Proofs.Socket.Leeway

set_option autoImplicit false

namespace DatabaseClient.Socket

theorem pollLimit_covers (nanos : Nat) :
    min nanos (longestPoll * 1000000) ≤ 1000000 * pollLimit nanos := by
  simp only [pollLimit]
  omega

theorem pollLimit_lt (nanos : Nat) : 1000000 * pollLimit nanos < nanos + 1000000 := by
  simp only [pollLimit]
  omega

def Entry.clock? : Entry → Option Nat
  | .step clock _ => some clock
  | _ => none

def lastStep? (log : List Entry) : Option Nat := (log.filterMap Entry.clock?).getLast?

@[simp] theorem lastStep_step (log : List Entry) (clock : Nat) (ready : Option Readiness) :
    lastStep? (log ++ [.step clock ready]) = some clock := by
  simp [lastStep?, Entry.clock?]

theorem lastStep_silent {entry : Entry} (silent : entry.clock? = none) (log : List Entry) :
    lastStep? (log ++ [entry]) = lastStep? log := by
  simp [lastStep?, silent]

def signals (log : List Entry) : List Signal := log.filterMap Entry.signal?

theorem signals_silent {entry : Entry} (silent : entry.signal? = none) (log : List Entry) :
    signals (log ++ [entry]) = signals log := by
  simp [signals, silent]

@[simp] theorem signals_poll (log : List Entry) (limit : Option Nat) (signal : Signal) :
    signals (log ++ [.poll limit (some signal)]) = signals log ++ [signal] := by
  simp [signals, Entry.signal?]

theorem arrivals_polled {kernel later : Kernel} {script : List Arrival} {past : List Entry}
    (arrivals : kernel.arrivals = script.drop (signals past).length) {limit : Option Nat}
    {signal : Signal} (polled : kernel.poll limit = some (some signal, later)) :
    later.arrivals = script.drop (signals (past ++ [.poll limit (some signal)])).length := by
  obtain ⟨first, rest, split, -, rfl⟩ := Kernel.poll_some polled
  rw [signals_poll, List.length_append, List.length_singleton, ← List.drop_drop, ← arrivals, split]
  rfl

/-- So long after its last step a wait may run out of its time: after all of it, but for what
exceeds the longest poll, and within a millisecond. -/
def Expired (timeout : Duration) (log : List Entry) (kernel : Kernel) : Prop :=
  ∃ clock, lastStep? log = some clock ∧ clock ≤ kernel.clock ∧
    min timeout.nanos (longestPoll * 1000000) ≤ 1000 * (kernel.clock - clock) ∧
    1000 * (kernel.clock - clock) < timeout.nanos + 1000000

structure Due (timeout : Duration) (script interruptions : List Arrival) (first : Arrival) :
    Prop where
  arrives : interruptions ++ [first] <+: script
  interrupt : ∀ arrival ∈ interruptions, arrival.signal = .failure Errno.interrupted
  signal : first.signal ≠ .failure Errno.interrupted
  inTime : 1000 * ((interruptions.map Arrival.delay).sum + first.delay) ≤ timeout.nanos

/-- The polls that follow are interrupted as often, and then bring the event. If the run ends with a
timeout after all, another step comes before that. -/
def Heard {α : Type} (outcome : Outcome α) (interruptions : List Arrival) (first : Arrival)
    (log : List Entry) : Prop :=
  ∃ polls limit later, log = polls ++ .poll limit (some first.signal) :: later ∧
    List.Forall₂ (fun entry arrival => ∃ limit, entry = .poll limit (some arrival.signal)) polls
      interruptions ∧
    (outcome = .failed .timeout → ∃ clock ready, .step clock ready ∈ later)

variable {ρ σ α : Type}

theorem Heard.again {outcome : Outcome α} {next first : Arrival} {others : List Arrival}
    {log : List Entry} {signal : Signal} (same : next.signal = signal) (limit : Option Nat)
    (heard : Heard outcome others first log) :
    Heard outcome (next :: others) first (.poll limit (some signal) :: log) := by
  obtain ⟨polls, last, later, rfl, brought, lapses⟩ := heard
  exact ⟨.poll limit (some signal) :: polls, last, later, rfl, .cons ⟨limit, by rw [same]⟩ brought,
    lapses⟩

namespace Multiplexed

section Expiry

variable (operation : Operation ρ σ α) (initial : σ)

def expiry (timeout : Duration) : Rules α where
  entry _ _ := True
  ending log outcome kernel := outcome = .failed .timeout →
    operation.last? initial (told log) = some (.error .timeout) ∨ Expired timeout log kernel

variable {operation initial} {timeout : Duration}

theorem expiry_own {log : List Entry} {error : Error} {kernel : Kernel}
    (failed : operation.last? initial (told log) = some (.error error)) :
    (expiry operation initial timeout).ending log (.failed error : Outcome α) kernel := by
  intro same
  obtain rfl := Outcome.failed.inj same
  exact .inl failed

structure Within (timeout : Duration) (past : List Entry) (start : Nat) (kernel : Kernel) :
    Prop where
  last : lastStep? past = some start
  order : start ≤ kernel.clock
  bounded : 1000 * (kernel.clock - start) < timeout.nanos + 1000000

variable {past : List Entry} {start : Nat} {kernel later : Kernel}

theorem Within.begin (silent : lastStep? past = some kernel.clock) (call : Control) :
    Within timeout past kernel.clock (kernel.control call) where
  last := silent
  order := Nat.le_refl _
  bounded := by simp [Kernel.control]

theorem Within.interrupted (within : Within timeout past start kernel) {signal : Signal}
    (polled : kernel.poll (limitAt (some timeout) start kernel.clock) = some (some signal, later)) :
    Within timeout (past ++ [.poll (limitAt (some timeout) start kernel.clock) (some signal)]) start
      later := by
  obtain ⟨last, order, bounded⟩ := within
  rcases Kernel.poll_cases polled with ⟨first, rest, -, due, -, rfl⟩ | ⟨_, -, -, -, none, -⟩
  next =>
    have due : first.delay ≤ 1000 * pollLimit (timeout.nanos - 1000 * (kernel.clock - start)) :=
      due _ rfl
    -- A limit is less than the time left and a millisecond, and zero when none is left.
    have rounded := pollLimit_lt (timeout.nanos - 1000 * (kernel.clock - start))
    refine ⟨by rw [lastStep_silent rfl, last], ?_, ?_⟩ <;> dsimp only [Kernel.deliver] <;> omega
  next => simp at none

theorem Within.expired (within : Within timeout past start kernel)
    (polled : kernel.poll (limitAt (some timeout) start kernel.clock) = some (none, later))
    (call : Control) (errno : Nat) :
    Expired timeout
      (past ++ [.poll (limitAt (some timeout) start kernel.clock) none] ++ [.control call errno])
      (later.control call) := by
  obtain ⟨last, order, bounded⟩ := within
  obtain ⟨ms, same, rfl, -⟩ := Kernel.poll_none polled
  obtain rfl := Option.some.inj same
  have rounded := pollLimit_lt (timeout.nanos - 1000 * (kernel.clock - start))
  have covered := pollLimit_covers (timeout.nanos - 1000 * (kernel.clock - start))
  refine ⟨start, by rw [lastStep_silent rfl, lastStep_silent rfl, last], ?_, ?_, ?_⟩ <;>
    dsimp only [Kernel.control, Kernel.idle] <;> omega

theorem advance_expiry {target : ρ → Target} {state : σ}
    {ready : Option Readiness} {again : σ → ρ → Kernel → Report α}
    (reached : operation.after initial (told past) = state)
    (goes : ∀ later request,
      operation.Asks initial
        (past ++ [.step kernel.clock ready] ++ [.control (target request).add 0]) later request →
      Within timeout (past ++ [.step kernel.clock ready] ++ [.control (target request).add 0])
        kernel.clock (kernel.control (target request).add) →
      (again later request (kernel.control (target request).add)).Keeps
        (expiry operation initial timeout)
        (past ++ [.step kernel.clock ready] ++ [.control (target request).add 0])) :
    (operation.advance (fun request => (target request).add) again state ready kernel).Keeps
      (expiry operation initial timeout) past := by
  refine .resume reached trivial (fun _ => expiry_own) (by simp [expiry])
    fun later request asks => ?_
  refine .called trivial (fun _ => goes later request (asks.silent _ rfl) ?_) (by simp [expiry])
  exact .begin (by rw [lastStep_silent rfl, lastStep_step]) _

theorem wait_expiry (target : ρ → Target) (state : σ) (request : ρ) (start : Nat)
    (kernel : Kernel) : ∀ past, operation.Asks initial past state request →
      Within timeout past start kernel →
      (wait operation target .timeout (some timeout) state request start kernel).Keeps
        (expiry operation initial timeout) past := by
  induction state, request, start, kernel using wait_induction with
  | unreached => exact fun past _ _ => .end (by simp [expiry])
  | stuck => exact fun past _ _ => .stuck trivial (by simp [expiry])
  | retried => contradiction
  | lapsed _ _ polled =>
    intro past _ within
    refine .log trivial (.called trivial (fun _ => .end fun _ => .inr ?_) (by simp [expiry]))
    exact within.expired polled _ 0
  | interrupted _ polled ih =>
    intro past asks within
    exact .log trivial (ih _ (asks.silent _ rfl) (within.interrupted polled))
  | failed => exact fun past _ _ => .log trivial (.end (by simp [expiry]))
  | unheeded => exact fun past _ _ => .log trivial (.end (by simp [expiry, badStatus]))
  | met _ _ _ _ ih =>
    intro past asks _
    refine .log trivial (.called trivial (fun _ => ?_) (by simp [expiry]))
    exact advance_expiry ((asks.silent _ rfl).silent _ rfl).state fun state request =>
      ih state request _
  | mismatched =>
    intro past _ _
    exact .log trivial (.called trivial (fun _ => .end (by simp [expiry])) (by simp [expiry]))

theorem connect_expiry {operation : Operation Target σ α} {state : σ}
    (positive : 0 < timeout.nanos) (kernel : Kernel) :
    (connect operation (some timeout) state kernel).Keeps (expiry operation state timeout) [] := by
  rcases connect_cases positive with begins | ⟨-, refused⟩
  next =>
    rw [begins]
    exact advance_expiry rfl fun later request => wait_expiry id later request _ _ _
  next =>
    rw [refused]
    exact .resume rfl trivial (fun _ => expiry_own) (by simp [expiry]) fun _ _ _ =>
      .end (by simp [expiry])

end Expiry

section Delivery

variable {operation : Operation ρ σ α} {target : ρ → Target} {timeout : Duration} {state : σ}
  {request : ρ} {start : Nat}

theorem poll_due {kernel : Kernel} {first : Arrival} {rest : List Arrival}
    (short : timeout.nanos ≤ longestPoll * 1000000) (arrivals : kernel.arrivals = first :: rest)
    (inTime : 1000 * (kernel.clock - start + first.delay) ≤ timeout.nanos) :
    kernel.poll (limitAt (some timeout) start kernel.clock) =
      some (some first.signal, kernel.deliver first rest) := by
  have covered := pollLimit_covers (timeout.nanos - 1000 * (kernel.clock - start))
  have due : first.delay ≤ 1000 * pollLimit (timeout.nanos - 1000 * (kernel.clock - start)) := by
    omega
  simp [Kernel.poll, arrivals, limitAt, due]

theorem react_timeout {again : σ → ρ → Nat → Kernel → Report α} {later : Kernel} {signal : Signal}
    (other : signal ≠ .failure Errno.interrupted)
    (lapsed : (react operation target .timeout state request start again later
      (some signal)).outcome = .failed .timeout) :
    ∃ clock ready, .step clock ready ∈ (react operation target .timeout state request start again
      later (some signal)).trace := by
  cases signal with
  | failure errno =>
    have other : errno ≠ Errno.interrupted := fun same => other (by rw [same])
    simp [react, other, Report.osFailure, Report.ending] at lapsed
  | event mask =>
    dsimp only [react] at lapsed ⊢
    split_ifs at lapsed ⊢ with empty meets
    next => simp [Report.ending, badStatus] at lapsed
    next =>
      unfold Report.called at lapsed ⊢
      split at lapsed
      next accepted =>
        rw [if_pos accepted]
        exact ⟨_, _, .tail _ (.head _)⟩
      next => simp [Report.osFailure, Report.ending] at lapsed
    next =>
      unfold Report.called at lapsed
      split at lapsed <;> simp [Report.osFailure, Report.ending] at lapsed

theorem wait_heard (short : timeout.nanos ≤ longestPoll * 1000000)
    (reached : Kernel.reaches start timeout = true) {first : Arrival}
    (signal : first.signal ≠ .failure Errno.interrupted) (interruptions : List Arrival)
    (interrupt : ∀ arrival ∈ interruptions, arrival.signal = .failure Errno.interrupted)
    (kernel : Kernel) (order : start ≤ kernel.clock)
    (arrives : interruptions ++ [first] <+: kernel.arrivals)
    (inTime : 1000 * (kernel.clock - start +
      ((interruptions.map Arrival.delay).sum + first.delay)) ≤ timeout.nanos) :
    Heard (wait operation target .timeout (some timeout) state request start kernel).outcome
      interruptions first
      (wait operation target .timeout (some timeout) state request start kernel).trace := by
  induction interruptions generalizing kernel with
  | nil =>
    obtain ⟨rest, arrivals⟩ := arrives
    rw [wait_polled (by simpa using reached)
      (poll_due short arrivals.symm (by simpa using inTime))]
    exact ⟨[], _, _, rfl, .nil, react_timeout signal⟩
  | cons next others ih =>
    obtain ⟨rest, arrivals⟩ := arrives
    replace arrivals : kernel.arrivals = next :: (others ++ [first] ++ rest) := arrivals.symm
    have interrupted : next.signal = .failure Errno.interrupted := interrupt next (.head _)
    simp only [List.map_cons, List.sum_cons] at inTime
    have polled : kernel.poll (limitAt (some timeout) start kernel.clock) = _ :=
      poll_due short arrivals (by omega)
    rw [interrupted] at polled
    rw [wait_polled (by simpa using reached) polled, react_interrupted]
    refine .again interrupted _ (ih (fun arrival member => interrupt arrival (.tail _ member)) _
      (Nat.le_trans order (Nat.le_add_right _ _)) ⟨rest, rfl⟩ ?_)
    dsimp only [Kernel.deliver]
    omega

end Delivery

end Multiplexed

namespace Report

def Hears (timeout : Duration) (script : List Arrival) (past : List Entry) (report : Report α) :
    Prop :=
  ∀ before clock ready call after,
    report.trace = before ++ .step clock ready :: .control call 0 :: after →
    Kernel.reaches clock timeout = true → ∀ interruptions first,
    Due timeout (script.drop (signals (past ++ before)).length) interruptions first →
    Heard report.outcome interruptions first after

variable {timeout : Duration} {script : List Arrival} {past : List Entry} {report : Report α}
  {kernel : Kernel}

theorem Hears.end (outcome : Outcome α) :
    (ending outcome kernel).Hears timeout script past := by
  intro before clock ready call after trace
  simp [ending] at trace

theorem Hears.log {entry : Entry} (silent : entry.clock? = none)
    (hears : report.Hears timeout script (past ++ [entry])) :
    (Report.log entry report).Hears timeout script past := by
  intro before clock ready call after trace
  cases before with
  | nil =>
    obtain ⟨rfl, -⟩ := List.cons.inj trace
    simp [Entry.clock?] at silent
  | cons other before =>
    obtain ⟨rfl, rest⟩ := List.cons.inj trace
    simpa using hears before clock ready call after rest

theorem Hears.called {call : Control}
    (hears : kernel.answer call = 0 → report.Hears timeout script (past ++ [.control call 0])) :
    (Report.called kernel call report).Hears timeout script past := by
  refine .log rfl ?_
  split
  next accepted =>
    rw [accepted]
    exact hears accepted
  next => exact .end _

theorem Hears.resume {operation : Operation ρ σ α} {state : σ} {ready : Option Readiness}
    {next : σ → ρ → Report α}
    (heard : ∀ later request call after, (next later request).trace = .control call 0 :: after →
      Kernel.reaches kernel.clock timeout = true → ∀ interruptions first,
      Due timeout (script.drop (signals past).length) interruptions first →
      Heard (next later request).outcome interruptions first after)
    (hears : ∀ later request,
      (next later request).Hears timeout script (past ++ [.step kernel.clock ready])) :
    (operation.resume state ready kernel next).Hears timeout script past := by
  unfold Operation.resume
  intro before clock again call after trace
  cases before with
  | nil =>
    obtain ⟨same, rest⟩ := List.cons.inj trace
    obtain ⟨rfl, -⟩ := Entry.step.inj same
    rcases step : operation.step state ready with ⟨later, error | request | value⟩
    next => simp [step, ending] at rest
    next =>
      rw [step] at rest
      simpa [step] using heard later request call after rest
    next => simp [step, ending] at rest
  | cons other before =>
    obtain ⟨rfl, rest⟩ := List.cons.inj trace
    rcases step : operation.step state ready with ⟨later, error | request | value⟩
    next => simp [step, ending] at rest
    next =>
      rw [step] at rest
      simpa [step] using hears later request before clock again call after rest
    next => simp [step, ending] at rest

end Report

namespace Multiplexed

section Hearing

variable {operation : Operation ρ σ α} {target : ρ → Target} {timeout : Duration}
  {script : List Arrival} {past : List Entry} {kernel : Kernel}

theorem called_heard (short : timeout.nanos ≤ longestPoll * 1000000)
    (reached : Kernel.reaches kernel.clock timeout = true) {state : σ} {request : ρ}
    {call other : Control} {after : List Entry} {interruptions : List Arrival} {first : Arrival}
    (due : Due timeout kernel.arrivals interruptions first)
    (trace : (Report.called kernel call (wait operation target .timeout (some timeout) state request
      kernel.clock (kernel.control call))).trace = .control other 0 :: after) :
    Heard (Report.called kernel call (wait operation target .timeout (some timeout) state request
      kernel.clock (kernel.control call))).outcome interruptions first after := by
  obtain ⟨same, rest⟩ := List.cons.inj trace
  have accepted : kernel.answer call = 0 := (Entry.control.inj same).2
  simp only [Report.called, accepted, if_true, Report.outcome_log] at rest ⊢
  rw [← rest]
  exact wait_heard short reached due.signal interruptions due.interrupt _ (Nat.le_refl _)
    due.arrives (by simpa [Kernel.control] using due.inTime)

theorem advance_hears (short : timeout.nanos ≤ longestPoll * 1000000) {state : σ}
    {ready : Option Readiness} (arrivals : kernel.arrivals = script.drop (signals past).length)
    (hears : ∀ later request past, kernel.arrivals = script.drop (signals past).length →
      (wait operation target .timeout (some timeout) later request kernel.clock
        (kernel.control (target request).add)).Hears timeout script past) :
    (operation.advance (fun request => (target request).add)
      (fun state request kernel =>
        wait operation target .timeout (some timeout) state request kernel.clock kernel)
      state ready kernel).Hears timeout script past := by
  refine .resume ?_ fun later request => .called fun _ => hears later request _ ?_
  next =>
    intro later request call after trace reached interruptions first due
    rw [← arrivals] at due
    exact called_heard short reached due trace
  next => rw [signals_silent rfl, signals_silent rfl, arrivals]

theorem wait_hears (short : timeout.nanos ≤ longestPoll * 1000000) (state : σ) (request : ρ)
    (start : Nat) (kernel : Kernel) :
    ∀ past, kernel.arrivals = script.drop (signals past).length →
      (wait operation target .timeout (some timeout) state request start kernel).Hears timeout
        script past := by
  induction state, request, start, kernel using wait_induction with
  | unreached => exact fun past _ => .end _
  | stuck => exact fun past _ => .log rfl (.end _)
  | retried => contradiction
  | lapsed => exact fun past _ => .log rfl (.called fun _ => .end _)
  | interrupted _ polled ih =>
    exact fun past arrivals => .log rfl (ih _ (arrivals_polled arrivals polled))
  | failed => exact fun past _ => .log rfl (.end _)
  | unheeded => exact fun past _ => .log rfl (.end _)
  | met _ polled _ _ ih =>
    intro past arrivals
    refine .log rfl (.called fun _ => advance_hears short ?_ fun state request => ih state request)
    have left := arrivals_polled arrivals polled
    rw [signals_silent rfl]
    exact left
  | mismatched => exact fun past _ => .log rfl (.called fun _ => .end _)

theorem connect_hears {operation : Operation Target σ α} {state : σ}
    (positive : 0 < timeout.nanos) (short : timeout.nanos ≤ longestPoll * 1000000)
    (kernel : Kernel) :
    (connect operation (some timeout) state kernel).Hears timeout kernel.arrivals [] := by
  rcases connect_cases positive with begins | ⟨-, refused⟩
  next =>
    rw [begins]
    exact advance_hears short rfl fun later request past arrivals =>
      wait_hears short later request _ _ past arrivals
  next =>
    rw [refused]
    exact .resume (by simp [Report.osFailure, Report.ending]) fun _ _ => .end _

end Hearing

/-- When an attempt at a connection gives up, all of its time has passed since the last step, up to
the longest poll, and less than a millisecond more, however often it was interrupted. And it does
not give up after a step if the first event that is no interruption is due in time: the events that
the earlier polls did not bring are counted from that step on, the interruptions come one by one,
and the event after them. -/
theorem connect_punctual (operation : Operation Target σ α) (state : σ) (kernel : Kernel)
    (timeout : Duration) (positive : 0 < timeout.nanos) :
    let report := connect operation (some timeout) state kernel
    (TimedOut operation state report →
      ∃ clock, lastStep? report.trace = some clock ∧ clock ≤ report.kernel.clock ∧
        min timeout.nanos (longestPoll * 1000000) ≤ 1000 * (report.kernel.clock - clock) ∧
        1000 * (report.kernel.clock - clock) < timeout.nanos + 1000000) ∧
    (timeout.nanos ≤ longestPoll * 1000000 → ∀ before clock ready call after,
      report.trace = before ++ .step clock ready :: .control call 0 :: after →
      Kernel.reaches clock timeout = true → ∀ interruptions first,
      Due timeout (kernel.arrivals.drop (signals before).length) interruptions first →
      Heard report.outcome interruptions first after) := by
  intro report
  refine ⟨fun timedOut => ?_, fun short => connect_hears positive short kernel⟩
  have ended : operation.last? state (told report.trace) = some (.error .timeout) ∨
      Expired timeout report.trace report.kernel :=
    (connect_expiry positive kernel).ending timedOut.1
  exact ended.resolve_left timedOut.2

/-- Both waits are interrupted. In the first one, the event comes in time; the second one ends 5.6
ms after it began. -/
theorem connect_punctual_interrupted :
    let operation := Operation.scripted Target Nat
    let steps := [.ok (.pending ⟨3, .read⟩), .ok (.pending ⟨4, .write⟩), .ok (.finished 7)]
    let kernel := Kernel.fresh [⟨700, .failure Errno.interrupted⟩, ⟨1500, .event EventMask.input⟩,
      ⟨2600, .failure Errno.interrupted⟩, ⟨9000, .event EventMask.output⟩]
    let report := connect operation (some ⟨5000000, by decide⟩) steps kernel
    report.outcome = .failed .timeout ∧ report.kernel.clock = 7800 ∧
    (∃ clock, lastStep? report.trace = some clock ∧
      5000000 ≤ 1000 * (report.kernel.clock - clock) ∧
      1000 * (report.kernel.clock - clock) < 6000000) ∧
    Heard report.outcome [⟨700, .failure Errno.interrupted⟩] ⟨1500, .event EventMask.input⟩
      (report.trace.drop 2) := by
  intro operation steps kernel report
  have timeout : report.outcome = .failed .timeout := by
    change (start _ (fun target => target) _ _ _ _).outcome = _
    cbv
  have clock : report.kernel.clock = 7800 := by
    change (start _ (fun target => target) _ _ _ _).kernel.clock = _
    cbv
  have stepped : told report.trace = [none, some ⟨true, false⟩] := by
    change told (start _ (fun target => target) _ _ _ _).trace = _
    cbv
  have waiting : operation.last? steps (told report.trace) = some (.ok (.pending ⟨4, .write⟩)) := by
    rw [stepped]
    rfl
  have trace : report.trace =
      [] ++ .step 0 none :: .control (.add 3 ⟨.read, false⟩) 0 :: report.trace.drop 2 := by
    change (start _ (fun target => target) _ _ _ _).trace =
      _ :: _ :: (start _ (fun target => target) _ _ _ _).trace.drop 2
    cbv
  obtain ⟨expired, heard⟩ :=
    connect_punctual operation steps kernel ⟨5000000, by decide⟩ (by decide)
  refine ⟨timeout, clock, ?_, ?_⟩
  next =>
    obtain ⟨last, step, -, full, brief⟩ := expired ⟨timeout, by rw [waiting]; simp⟩
    exact ⟨last, step, Nat.le_trans (by decide) full, brief⟩
  next =>
    refine heard (by decide) [] 0 none _ _ trace (by decide) _ _ ?_
    exact ⟨⟨_, rfl⟩, by simp, by simp, by decide⟩

end Multiplexed

end DatabaseClient.Socket
