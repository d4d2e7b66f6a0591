import DatabaseClient.Proofs.Socket.Log

set_option autoImplicit false

namespace DatabaseClient.Socket

variable {ρ σ α : Type}

def Operation.Resumable (operation : Operation ρ σ α) (interest : ρ → Interest) (initial : σ)
    (log : List Entry) : Option Readiness → Prop
  | none => log = []
  | some ready => ready.isEmpty = false ∧
    ∃ request, operation.last? initial (told log) = some (.ok (.pending request)) ∧
      ready.meets (interest request) = true

structure Settles (last : Option (Except Error (Step ρ α))) (outcome : Outcome α) : Prop where
  finished : ∀ value, outcome = .finished value ↔ last = some (.ok (.finished value))
  failed : ∀ error, last = some (.error error) → outcome = .failed error

theorem Settles.error (error : Error) :
    Settles (some (.error error : Except Error (Step ρ α))) (.failed error) :=
  ⟨by simp, by simp⟩

theorem Settles.value (value : α) :
    Settles (some (.ok (.finished value : Step ρ α))) (.finished value) :=
  ⟨by simp, by simp⟩

theorem Settles.pending (request : ρ) {outcome : Outcome α}
    (unfinished : ∀ value, outcome ≠ .finished value) :
    Settles (some (.ok (.pending request))) outcome :=
  ⟨by simp [unfinished], by simp⟩

structure Blameless (last : Option (Except Error (Step ρ α))) (outcome : Outcome α) : Prop where
  matched : ∀ ready interest, outcome ≠ .aborted (.mismatch ready interest)
  internal : ∀ text, outcome = .failed (.internal text) → last = some (.error (.internal text))

theorem Blameless.error (error : Error) :
    Blameless (some (.error error : Except Error (Step ρ α))) (.failed error) :=
  ⟨by simp, by simp⟩

def Rules.Excuse (rules : Rules α) (operation : Operation ρ σ α) (initial : σ) : Prop :=
  ∀ {log : List Entry} {outcome : Outcome α} {kernel : Kernel},
    Blameless (operation.last? initial (told log)) outcome → rules.ending log outcome kernel

section Excuse

variable {rules : Rules α} {operation : Operation ρ σ α} {initial : σ} {past : List Entry}
  {kernel : Kernel}

theorem Rules.Excuse.called (excuse : rules.Excuse operation initial) {call : Control}
    {report : Report α} (allowed : rules.entry past (.control call (kernel.answer call)))
    (accepted : report.Keeps rules (past ++ [.control call 0])) :
    (Report.called kernel call report).Keeps rules past :=
  .called allowed (fun _ => accepted) (fun _ => excuse ⟨by simp, by simp⟩)

theorem Rules.Excuse.resume (excuse : rules.Excuse operation initial) {state : σ}
    {ready : Option Readiness} {next : σ → ρ → Report α}
    (reached : operation.after initial (told past) = state)
    (allowed : rules.entry past (.step kernel.clock ready))
    (pending : ∀ later request,
      operation.Asks initial (past ++ [.step kernel.clock ready]) later request →
      (next later request).Keeps rules (past ++ [.step kernel.clock ready])) :
    (operation.resume state ready kernel next).Keeps rules past := by
  refine .resume reached allowed ?_ (fun _ _ => excuse ⟨by simp, by simp⟩) pending
  intro error last
  refine excuse ?_
  rw [last]
  exact .error error

theorem Rules.Excuse.advance (excuse : rules.Excuse operation initial) {state : σ}
    {ready : Option Readiness} {call : ρ → Control} {again : σ → ρ → Kernel → Report α}
    (reached : operation.after initial (told past) = state)
    (allowed : rules.entry past (.step kernel.clock ready))
    (calls : ∀ request, rules.entry (past ++ [.step kernel.clock ready])
      (.control (call request) (kernel.answer (call request))))
    (goes : ∀ later request,
      operation.Asks initial
        (past ++ [.step kernel.clock ready] ++ [.control (call request) 0]) later request →
      (again later request (kernel.control (call request))).Keeps rules
        (past ++ [.step kernel.clock ready] ++ [.control (call request) 0])) :
    (operation.advance call again state ready kernel).Keeps rules past :=
  excuse.resume reached allowed fun later request asks =>
    excuse.called (calls request) (goes later request (asks.silent _ rfl))

end Excuse

def resumption (operation : Operation ρ σ α) (interest : ρ → Interest) (initial : σ) : Rules α where
  entry log
    | .step _ ready => operation.Resumable interest initial log ready
    | _ => True
  ending log outcome _ := Settles (operation.last? initial (told log)) outcome

variable {operation : Operation ρ σ α} {interest : ρ → Interest} {initial state : σ}
  {past : List Entry} {request : ρ} {kernel : Kernel}

theorem Operation.Asks.resumable (asks : operation.Asks initial past state request)
    {ready : Readiness} (nonempty : ¬ ready.isEmpty = true)
    (meets : ready.meets (interest request) = true) :
    operation.Resumable interest initial past (some ready) :=
  ⟨Bool.eq_false_iff.mpr nonempty, request, asks.request, meets⟩

theorem Operation.Asks.settles (asks : operation.Asks initial past state request)
    {outcome : Outcome α} (unfinished : ∀ value, outcome ≠ .finished value) :
    Settles (operation.last? initial (told past)) outcome :=
  asks.request ▸ .pending request unfinished

theorem Operation.Asks.called (asks : operation.Asks initial past state request) {call : Control}
    {next : Report α}
    (goes : operation.Asks initial (past ++ [.control call 0]) state request →
      next.Keeps (resumption operation interest initial) (past ++ [.control call 0])) :
    (Report.called kernel call next).Keeps (resumption operation interest initial) past :=
  .called trivial (fun _ => goes (asks.silent _ rfl))
    (fun _ => (asks.silent _ rfl).settles (by simp))

theorem Report.Keeps.resumed {ready : Option Readiness} {next : σ → ρ → Report α}
    (reached : operation.after initial (told past) = state)
    (resumable : operation.Resumable interest initial past ready)
    (pending : ∀ later request,
      operation.Asks initial (past ++ [.step kernel.clock ready]) later request →
      (next later request).Keeps (resumption operation interest initial)
        (past ++ [.step kernel.clock ready])) :
    (operation.resume state ready kernel next).Keeps (resumption operation interest initial)
      past := by
  refine .resume reached resumable ?_ ?_ pending
  next =>
    intro error last
    change Settles _ _
    rw [last]
    exact .error error
  next =>
    intro value last
    change Settles _ _
    rw [last]
    exact .value value

theorem Report.Keeps.advanced {call : ρ → Control} {again : σ → ρ → Kernel → Report α}
    {ready : Option Readiness} (reached : operation.after initial (told past) = state)
    (resumable : operation.Resumable interest initial past ready)
    (goes : ∀ later request,
      operation.Asks initial
        (past ++ [.step kernel.clock ready] ++ [.control (call request) 0]) later request →
      (again later request (kernel.control (call request))).Keeps
        (resumption operation interest initial)
        (past ++ [.step kernel.clock ready] ++ [.control (call request) 0])) :
    (operation.advance call again state ready kernel).Keeps
      (resumption operation interest initial) past :=
  .resumed reached resumable fun later request asks => asks.called (goes later request)

theorem Multiplexed.wait_resumes (operation : Operation ρ σ α) (initial : σ) (target : ρ → Target)
    (lapse : Lapse) (timeout : Option Duration) (state : σ) (request : ρ) (start : Nat)
    (kernel : Kernel) : ∀ past, operation.Asks initial past state request →
    (wait operation target lapse timeout state request start kernel).Keeps
      (resumption operation (fun request => (target request).interest) initial) past := by
  induction state, request, start, kernel using wait_induction with
  | unreached => exact fun past asks => .end (asks.settles (by simp))
  | stuck => exact fun past asks => .stuck trivial ((asks.silent _ rfl).settles (by simp))
  | retried _ _ _ ih => exact fun past asks => .log trivial (ih _ (asks.silent _ rfl))
  | lapsed =>
    intro past asks
    refine .log trivial ((asks.silent _ rfl).called fun asks => ?_)
    exact .end (asks.settles (by simp))
  | interrupted _ _ ih => exact fun past asks => .log trivial (ih _ (asks.silent _ rfl))
  | failed => exact fun past asks => .log trivial (.end ((asks.silent _ rfl).settles (by simp)))
  | unheeded => exact fun past asks => .log trivial (.end ((asks.silent _ rfl).settles (by simp)))
  | met _ _ nonempty meets ih =>
    intro past asks
    refine .log trivial ((asks.silent _ rfl).called fun asks => ?_)
    exact .advanced asks.state (asks.resumable nonempty meets)
      fun state request => ih state request _
  | mismatched =>
    intro past asks
    refine .log trivial ((asks.silent _ rfl).called fun asks => ?_)
    exact .end (asks.settles (by simp))

theorem OneShot.wait_resumes (operation : Operation Interest σ α) (initial : σ)
    (descriptor : Descriptor) (limit : Option Nat) (state : σ) (interest : Interest)
    (kernel : Kernel) : ∀ past, operation.Asks initial past state interest →
    (wait operation descriptor limit state interest kernel).Keeps
      (resumption operation id initial) past := by
  induction state, interest, kernel using wait_induction with
  | stuck => exact fun past asks => .stuck trivial ((asks.silent _ rfl).settles (by simp))
  | retried _ ih => exact fun past asks => .log trivial (ih _ (asks.silent _ rfl))
  | interrupted _ ih => exact fun past asks => .log trivial (ih _ (asks.silent _ rfl))
  | failed => exact fun past asks => .log trivial (.end ((asks.silent _ rfl).settles (by simp)))
  | unheeded => exact fun past asks => .log trivial (.end ((asks.silent _ rfl).settles (by simp)))
  | met _ nonempty meets ih =>
    intro past asks
    refine .log trivial ?_
    exact .advanced (asks.silent _ rfl).state ((asks.silent _ rfl).resumable nonempty meets)
      fun state interest => ih state interest _
  | mismatched => exact fun past asks => .log trivial (.end ((asks.silent _ rfl).settles (by simp)))

theorem Readiness.meets_inter {ready : Readiness} {interest : Interest}
    (nonempty : ¬ (ready.inter interest.readiness).isEmpty = true) :
    (ready.inter interest.readiness).meets interest = true := by
  obtain ⟨read, write⟩ := ready
  cases interest <;> cases read <;> cases write <;> first | rfl | exact absurd rfl nonempty

theorem Reactor.meets_satisfied {interest : Interest} {signal : Signal}
    (nonempty : ¬ (satisfied interest signal).isEmpty = true) :
    (satisfied interest signal).meets interest = true := by
  cases signal with
  | failure errno => exact absurd rfl nonempty
  | event mask => exact Readiness.meets_inter nonempty

theorem Reactor.abandon_resumes {operation : Operation ρ σ α} {initial state : σ} {request : ρ}
    {interest : ρ → Interest} {past : List Entry}
    (asks : operation.Asks initial past state request) (target : Target) (cause : Cause)
    (kernel : Kernel) :
    (abandon target cause kernel).Keeps (resumption operation interest initial) past := by
  refine .log trivial (.end ((asks.silent _ rfl).settles ?_))
  cases cause <;> simp [Cause.outcome]

theorem Reactor.wait_resumes (operation : Operation ρ σ α) (initial : σ) (target : ρ → Target)
    (timeout : Option Duration) (cancel : Option Nat) (state : σ) (request : ρ) (start : Nat)
    (kernel : Kernel) : ∀ past, operation.Asks initial past state request →
    (wait operation target timeout cancel state request start kernel).Keeps
      (resumption operation (fun request => (target request).interest) initial) past := by
  induction state, request, start, kernel using wait_induction with
  | stuck => exact fun past asks => .stuck trivial ((asks.silent _ rfl).settles (by simp))
  | abandoned => exact fun past asks => abandon_resumes asks _ _ _
  | overdue => exact fun past asks => abandon_resumes asks _ _ _
  | passed _ _ _ ih => exact ih
  | met _ _ nonempty ih =>
    intro past asks
    refine .log trivial ?_
    exact .advanced (asks.silent _ rfl).state
      ((asks.silent _ rfl).resumable nonempty (meets_satisfied nonempty))
      fun state request => ih state request _

namespace Wait

variable (wait : Wait ρ) (operation : Operation ρ σ α) (state : σ) (kernel : Kernel)

theorem again_resumes (initial : σ) (request : ρ) (past : List Entry)
    (asks : operation.Asks initial past state request) :
    (wait.again operation state request kernel).Keeps
      (resumption operation (fun request => (wait.target request).interest) initial) past := by
  cases wait with
  | multiplexed => exact Multiplexed.wait_resumes _ _ _ _ _ _ _ _ _ _ asks
  | oneShot => exact OneShot.wait_resumes _ _ _ _ _ _ _ _ asks
  | suspended => exact Reactor.wait_resumes _ _ _ _ _ _ _ _ _ _ asks
  | connecting => exact Multiplexed.wait_resumes _ _ _ _ _ _ _ _ _ _ asks
  | connectingSuspended => exact Reactor.wait_resumes _ _ _ _ _ _ _ _ _ _ asks

theorem run_keeps : (wait.run operation state kernel).Keeps
    (resumption operation (fun request => (wait.target request).interest) state) [] := by
  rcases wait.run_cases operation state kernel with begins | ⟨-, refused⟩
  next =>
    rw [begins]
    exact .advanced rfl rfl fun later request asks => wait.again_resumes _ _ _ _ _ _ asks
  next =>
    rw [refused]
    exact .resumed rfl rfl fun later request asks => .end (asks.settles (by simp))

theorem run_begins : ∃ next, wait.run operation state kernel =
    operation.resume state none kernel next := by
  cases wait <;> exact ⟨_, rfl⟩

omit wait kernel in
theorem run_at_once (ends : ∀ request, (operation.step state none).2 ≠ .ok (.pending request)) :
    ∃ outcome, ∀ (wait : Wait ρ) (kernel : Kernel),
      wait.run operation state kernel =
        .log (.step kernel.clock none) (.ending outcome kernel) := by
  rcases step : operation.step state none with ⟨later, error | request | value⟩
  next =>
    refine ⟨.failed error, fun wait kernel => ?_⟩
    obtain ⟨next, begins⟩ := wait.run_begins operation state kernel
    rw [begins, Operation.resume, step]
  next => exact absurd (congrArg Prod.snd step) (ends request)
  next =>
    refine ⟨.finished value, fun wait kernel => ?_⟩
    obtain ⟨next, begins⟩ := wait.run_begins operation state kernel
    rw [begins, Operation.resume, step]

/-- Whichever wait carries an operation, and whatever the kernel answers: only the first step is
made without readiness, every other with readiness for a part of what the step before it asked, so
that none follows an end. The operation's end is the wait's. If it ends with its first step, no call
is made, and nothing but the operation decides how. -/
theorem run_resumes :
    let report := wait.run operation state kernel
    report.trace.head? = some (.step kernel.clock none) ∧
    (∀ before clock ready after, report.trace = before ++ .step clock ready :: after →
      operation.Resumable (fun request => (wait.target request).interest) state before ready) ∧
    Settles (operation.last? state (told report.trace)) report.outcome ∧
    ((∀ request, (operation.step state none).2 ≠ .ok (.pending request)) →
      report.trace = [.step kernel.clock none] ∧ report.kernel = kernel ∧
      ∀ (other : Wait ρ) (elsewhere : Kernel),
        (other.run operation state elsewhere).outcome = report.outcome) := by
  intro report
  have keeps := wait.run_keeps operation state kernel
  refine ⟨?_, fun before clock ready after trace => keeps.entry before _ after trace,
    keeps.ending, ?_⟩
  next =>
    obtain ⟨next, begins⟩ := wait.run_begins operation state kernel
    simp [report, begins, Operation.resume]
  next =>
    intro ends
    obtain ⟨outcome, same⟩ := run_at_once operation state ends
    simp only [report, same]
    exact ⟨rfl, rfl, fun _ _ => rfl⟩

end Wait

end DatabaseClient.Socket
