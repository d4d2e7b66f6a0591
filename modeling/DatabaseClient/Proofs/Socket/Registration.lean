import DatabaseClient.Proofs.Socket.Log

set_option autoImplicit false

namespace DatabaseClient.Socket

variable {ρ σ α : Type}

def Control.descriptor : Control → Descriptor
  | .add descriptor _ | .modify descriptor _ | .remove descriptor => descriptor

def Target.watch (target : Target) : Watch := ⟨target.interest, false⟩

/-- Nothing is registered but what the operation asked for last. That was registered right after the
step that asked for it, and since then there were only polls. -/
structure Listening (operation : Operation ρ σ α) (target : ρ → Target) (initial : σ)
    (log : List Entry) (request : ρ) : Prop where
  asked : operation.last? initial (told log) = some (.ok (.pending request))
  alone : registrations log = [((target request).descriptor, (target request).watch)]
  since : ∃ earlier clock ready polls, log = earlier ++ .step clock ready ::
    .control (.add (target request).descriptor (target request).watch) 0 :: polls ∧
    ∀ entry ∈ polls, entry.isPoll = true

def Delivered (operation : Operation ρ σ α) (target : ρ → Target) (initial : σ)
    (log : List Entry) (ready : Readiness) : Prop :=
  ∃ past limit mask request,
    log = past ++ [.poll limit (some (.event mask)),
      .control (.remove (target request).descriptor) 0] ∧
    Listening operation target initial past request ∧ ready = mask.byFlag

def Concluded (last : Option (Except Error (Step ρ α))) : Outcome α → Prop
  | .finished _ | .aborted (.mismatch _ _) => True
  | .failed error => error = .timeout ∨ last = some (.error error)
  | .aborted .deadlineOverflow | .cancelled | .stuck => False

def Control.Accepted (call : Control) (faults : List Nat) (errno : Nat) : Prop :=
  (∀ errno ∈ faults, errno = 0) → 0 ≤ call.descriptor → errno = 0

def registering (operation : Operation ρ σ α) (target : ρ → Target) (initial : σ)
    (faults : List Nat) : Rules α where
  entry log
    | .step _ (some ready) =>
      registrations log = [] ∧ Delivered operation target initial log ready
    | .poll _ _ | .stuck => ∃ request, Listening operation target initial log request
    | .control (.remove descriptor) errno =>
      (∃ request, Listening operation target initial log request ∧
        descriptor = (target request).descriptor) ∧
      (Control.remove descriptor).Accepted faults errno
    | .control call errno => call.Accepted faults errno
    | .step _ none => True
  ending log outcome kernel :=
    kernel.registered = (registrations log).map Prod.fst ∧
    (Concluded (operation.last? initial (told log)) outcome → registrations log = [])

variable {operation : Operation ρ σ α} {target : ρ → Target} {initial state : σ}
  {faults : List Nat} {past : List Entry} {request : ρ} {kernel later : Kernel}

theorem Listening.poll (listening : Listening operation target initial past request)
    (limit : Option Nat) (signal : Option Signal) :
    Listening operation target initial (past ++ [.poll limit signal]) request where
  asked := by rw [told_poll, listening.asked]
  alone := by rw [registrations_append, listening.alone]; rfl
  since := by
    obtain ⟨earlier, clock, ready, polls, rfl, only⟩ := listening.since
    refine ⟨earlier, clock, ready, polls ++ [.poll limit signal], by simp, ?_⟩
    intro entry member
    rcases List.mem_append.mp member with before | last
    next => exact only entry before
    next => rw [List.mem_singleton.mp last]; rfl

structure Attends (operation : Operation ρ σ α) (target : ρ → Target) (initial : σ)
    (faults : List Nat) (past : List Entry) (state : σ) (request : ρ) (kernel : Kernel) : Prop where
  state : operation.after initial (told past) = state
  listening : Listening operation target initial past request
  registered : kernel.registered = [(target request).descriptor]
  faultless : (∀ errno ∈ faults, errno = 0) → ∀ errno ∈ kernel.faults, errno = 0

structure Clear (operation : Operation ρ σ α) (initial : σ) (faults : List Nat) (past : List Entry)
    (state : σ) (kernel : Kernel) : Prop where
  state : operation.after initial (told past) = state
  bare : registrations past = []
  registered : kernel.registered = []
  faultless : (∀ errno ∈ faults, errno = 0) → ∀ errno ∈ kernel.faults, errno = 0

theorem not_concluded {error : Error} (other : error ≠ .timeout) :
    ¬ Concluded (some (.ok (.pending request : Step ρ α))) (.failed error : Outcome α) := by
  simp [Concluded, other]

namespace Attends

variable (attends : Attends operation target initial faults past state request kernel)
include attends

theorem poll {limit : Option Nat} {signal : Option Signal}
    (polled : kernel.poll limit = some (signal, later)) :
    Attends operation target initial faults (past ++ [.poll limit signal]) state request later := by
  obtain ⟨registered, faults⟩ := Kernel.registered_poll polled
  refine ⟨by rw [told_poll, attends.state], attends.listening.poll limit signal, ?_, ?_⟩
  next => rw [registered, attends.registered]
  next => rw [faults]; exact attends.faultless

theorem ends {outcome : Outcome α}
    (unconcluded : ¬ Concluded (some (.ok (.pending request))) outcome) :
    (registering operation target initial faults).ending past outcome kernel := by
  constructor
  next => rw [attends.registered, attends.listening.alone]; rfl
  next => rw [attends.listening.asked]; exact fun concluded => absurd concluded unconcluded

theorem stuck : (Report.stuck kernel : Report α).Keeps
    (registering operation target initial faults) past := by
  refine .stuck ⟨request, attends.listening⟩ ⟨?_, ?_⟩
  next => rw [registrations_append, attends.registered, attends.listening.alone]; rfl
  next => exact False.elim

theorem removed {next : Report α}
    (goes : Clear operation initial faults
        (past ++ [.control (.remove (target request).descriptor) 0]) state
        (kernel.control (.remove (target request).descriptor)) →
      next.Keeps (registering operation target initial faults)
        (past ++ [.control (.remove (target request).descriptor) 0])) :
    (Report.called kernel (.remove (target request).descriptor) next).Keeps
      (registering operation target initial faults) past := by
  refine .called ⟨⟨request, attends.listening, rfl⟩, fun faultless valid => ?_⟩
    (fun accepted => goes ⟨?_, ?_, ?_, ?_⟩) (fun refused => ⟨?_, ?_⟩)
  next =>
    have serves : kernel.Serves [(target request).descriptor] :=
      ⟨attends.registered, attends.faultless faultless⟩
    exact (serves.remove valid).1
  next => rw [told_control, attends.state]
  next => rw [registrations_append, attends.listening.alone]; simp [Entry.register]
  next => rw [Kernel.registered_remove accepted, attends.registered]; simp
  next =>
    exact fun faultless errno member =>
      attends.faultless faultless errno (List.mem_of_mem_drop member)
  next =>
    -- A removal that fails ends the wait with its target still registered.
    rw [Kernel.registered_refused refused, registrations_append, Entry.register_refused refused,
      attends.registered, attends.listening.alone]
    rfl
  next =>
    rw [told_control, attends.listening.asked]
    exact fun concluded => absurd concluded (not_concluded (by simp))

end Attends

namespace Clear

variable (clear : Clear operation initial faults past state kernel)
include clear

theorem ends {outcome : Outcome α} :
    (registering operation target initial faults).ending past outcome kernel := by
  refine ⟨?_, fun _ => clear.bare⟩
  rw [clear.registered, clear.bare]
  rfl

theorem resume {ready : Option Readiness} {next : σ → ρ → Report α}
    (allowed : (registering operation target initial faults).entry past (.step kernel.clock ready))
    (pending : ∀ later request,
      operation.Asks initial (past ++ [.step kernel.clock ready]) later request →
      (next later request).Keeps (registering operation target initial faults)
        (past ++ [.step kernel.clock ready])) :
    (operation.resume state ready kernel next).Keeps
      (registering operation target initial faults) past := by
  have bare : registrations (past ++ [.step kernel.clock ready]) = [] := by
    rw [registrations_append, clear.bare]
    rfl
  have held : kernel.registered =
      (registrations (past ++ [.step kernel.clock ready])).map Prod.fst := by
    rw [bare, clear.registered]
    rfl
  exact .resume clear.state allowed (fun _ _ => ⟨held, fun _ => bare⟩)
    (fun _ _ => ⟨held, fun _ => bare⟩) pending

theorem added {resumed : σ} {clock : Nat} {ready : Option Readiness}
    {next : Report α}
    (asks : operation.Asks initial (past ++ [.step clock ready]) resumed request)
    (goes : Attends operation target initial faults
        (past ++ [.step clock ready] ++
          [.control (.add (target request).descriptor (target request).watch) 0]) resumed request
        (kernel.control (.add (target request).descriptor (target request).watch)) →
      next.Keeps (registering operation target initial faults)
        (past ++ [.step clock ready] ++
          [.control (.add (target request).descriptor (target request).watch) 0])) :
    (Report.called kernel (.add (target request).descriptor (target request).watch) next).Keeps
      (registering operation target initial faults) (past ++ [.step clock ready]) := by
  have bare : registrations (past ++ [.step clock ready]) = [] := by
    rw [registrations_append, clear.bare]
    rfl
  refine .called (fun faultless valid => ?_)
    (fun accepted => goes ⟨?_, ⟨?_, ?_, ?_⟩, ?_, ?_⟩) (fun refused => ⟨?_, ?_⟩)
  next =>
    have serves : kernel.Serves [] := ⟨clear.registered, clear.faultless faultless⟩
    exact (serves.add valid _).1
  next => rw [told_control, asks.state]
  next => rw [told_control, asks.request]
  next => rw [registrations_append, bare]; rfl
  next => exact ⟨past, clock, ready, [], by simp, by simp⟩
  next => rw [Kernel.registered_add accepted, clear.registered]
  next =>
    exact fun faultless errno member =>
      clear.faultless faultless errno (List.mem_of_mem_drop member)
  next =>
    rw [Kernel.registered_refused refused, registrations_append, Entry.register_refused refused,
      clear.registered, bare]
    rfl
  next =>
    rw [registrations_append, Entry.register_refused refused]
    exact fun _ => bare

theorem advance {ready : Option Readiness} {again : σ → ρ → Kernel → Report α}
    (allowed : (registering operation target initial faults).entry past (.step kernel.clock ready))
    (goes : ∀ later request, Attends operation target initial faults
        (past ++ [.step kernel.clock ready] ++ [.control (target request).add 0]) later request
        (kernel.control (target request).add) →
      (again later request (kernel.control (target request).add)).Keeps
        (registering operation target initial faults)
        (past ++ [.step kernel.clock ready] ++ [.control (target request).add 0])) :
    (operation.advance (fun request => (target request).add) again state ready kernel).Keeps
      (registering operation target initial faults) past :=
  clear.resume allowed fun later request asks => clear.added asks (goes later request)

end Clear

theorem Multiplexed.wait_registering (operation : Operation ρ σ α) (target : ρ → Target)
    (initial : σ) (faults : List Nat) (lapse : Lapse) (timeout : Option Duration) (state : σ)
    (request : ρ) (start : Nat) (kernel : Kernel) :
    ∀ past, Attends operation target initial faults past state request kernel →
    (wait operation target lapse timeout state request start kernel).Keeps
      (registering operation target initial faults) past := by
  induction state, request, start, kernel using wait_induction with
  | unreached => exact fun past attends => .end (attends.ends id)
  | stuck => exact fun past attends => attends.stuck
  | retried _ _ polled ih =>
    exact fun past attends => .log ⟨_, attends.listening⟩ (ih _ (attends.poll polled))
  | lapsed _ _ polled =>
    intro past attends
    refine .log ⟨_, attends.listening⟩ ((attends.poll polled).removed fun clear => ?_)
    exact .end clear.ends
  | interrupted _ polled ih =>
    exact fun past attends => .log ⟨_, attends.listening⟩ (ih _ (attends.poll polled))
  | failed _ polled =>
    intro past attends
    refine .log ⟨_, attends.listening⟩ (.end ?_)
    exact (attends.poll polled).ends (not_concluded (by simp))
  | unheeded _ polled =>
    intro past attends
    refine .log ⟨_, attends.listening⟩ (.end ?_)
    exact (attends.poll polled).ends (not_concluded (by simp [badStatus]))
  | met _ polled _ _ ih =>
    intro past attends
    refine .log ⟨_, attends.listening⟩ ((attends.poll polled).removed fun clear => ?_)
    refine clear.advance ⟨clear.bare, past, _, _, _, List.append_assoc _ _ _, attends.listening,
      rfl⟩ ?_
    exact fun state request => ih state request _
  | mismatched _ polled =>
    intro past attends
    refine .log ⟨_, attends.listening⟩ ((attends.poll polled).removed fun clear => ?_)
    exact .end clear.ends

namespace Wait

theorem run_registering {wait : Wait ρ} (multiplexes : wait.Multiplexes)
    (operation : Operation ρ σ α) (state : σ) {kernel : Kernel} (cleared : kernel.registered = []) :
    (wait.run operation state kernel).Keeps
      (registering operation wait.target state kernel.faults) [] := by
  have clear : Clear operation state kernel.faults [] state kernel := ⟨rfl, rfl, cleared, id⟩
  rcases wait.run_cases operation state kernel with begins | ⟨-, refused⟩
  next =>
    rw [begins]
    cases wait with
    | multiplexed | connecting =>
      exact clear.advance trivial fun _ _ => Multiplexed.wait_registering _ _ _ _ _ _ _ _ _ _ _
    | oneShot | suspended | connectingSuspended => exact multiplexes.elim
  next =>
    rw [refused]
    exact clear.resume trivial fun _ _ _ => .end ⟨cleared, fun _ => rfl⟩

/-- A wait that registers for each step never steps while anything is registered. It polls only what
its operation asked for last, registered alone and after that request, and removes nothing else, so
that readiness of one target is never told for another. Once it has come to an end of its own,
nothing is left. Calls fail only by chance or for descriptors of no file. -/
theorem run_registrations (wait : Wait ρ) (multiplexes : wait.Multiplexes)
    (operation : Operation ρ σ α) (state : σ) (kernel : Kernel) (cleared : kernel.registered = []) :
    let report := wait.run operation state kernel
    (∀ before clock ready after, report.trace = before ++ .step clock (some ready) :: after →
      registrations before = [] ∧ Delivered operation wait.target state before ready) ∧
    (∀ before limit signal after, report.trace = before ++ .poll limit signal :: after →
      ∃ request, Listening operation wait.target state before request) ∧
    (∀ before after, report.trace = before ++ .stuck :: after →
      ∃ request, Listening operation wait.target state before request) ∧
    (∀ before descriptor errno after,
      report.trace = before ++ .control (.remove descriptor) errno :: after →
      ∃ request, Listening operation wait.target state before request ∧
        descriptor = (wait.target request).descriptor) ∧
    report.kernel.registered = (registrations report.trace).map Prod.fst ∧
    (Concluded (operation.last? state (told report.trace)) report.outcome →
      report.kernel.registered = []) ∧
    ((∀ errno ∈ kernel.faults, errno = 0) →
      ∀ call errno, .control call errno ∈ report.trace → 0 ≤ call.descriptor → errno = 0) := by
  intro report
  have keeps := run_registering multiplexes operation state cleared
  obtain ⟨registered, concluded⟩ := keeps.ending
  refine ⟨fun before clock ready after trace => keeps.entry before _ after trace,
    fun before limit signal after trace => keeps.entry before _ after trace,
    fun before after trace => keeps.entry before _ after trace,
    fun before descriptor errno after trace => (keeps.entry before _ after trace).1,
    registered, ?_, ?_⟩
  next =>
    intro ended
    rw [registered, concluded ended]
    rfl
  next =>
    intro faultless call errno member
    obtain ⟨before, after, trace⟩ := List.append_of_mem member
    have allowed := keeps.entry before _ after trace
    cases call with
    | remove descriptor => exact allowed.2 faultless
    | add descriptor watch => exact allowed faultless
    | modify descriptor watch => exact allowed faultless

theorem run_registrations_return :
    let report := (connecting (some ⟨5000000000, by decide⟩)).run (.scripted Target Nat)
      [.ok (.pending ⟨3, .read⟩), .ok (.pending ⟨4, .write⟩), .ok (.pending ⟨3, .both⟩),
        .ok (.finished 7)]
      (.fresh [⟨0, .event EventMask.input⟩, ⟨10, .failure Errno.interrupted⟩,
        ⟨20, .event EventMask.output⟩, ⟨5, .event EventMask.hangUp⟩])
    report.outcome = .finished 7 ∧ report.kernel.registered = [] ∧
    ∀ call errno, .control call errno ∈ report.trace → 0 ≤ call.descriptor → errno = 0 := by
  intro report
  have outcome : report.outcome = .finished 7 := by
    change (Multiplexed.start _ (fun target => target) _ _ _ _).outcome = _
    cbv
  obtain ⟨-, -, -, -, -, released, accepted⟩ :=
    run_registrations (connecting (some ⟨5000000000, by decide⟩)) (by trivial)
      (.scripted Target Nat)
      [.ok (.pending ⟨3, .read⟩), .ok (.pending ⟨4, .write⟩), .ok (.pending ⟨3, .both⟩),
        .ok (.finished 7)]
      (.fresh [⟨0, .event EventMask.input⟩, ⟨10, .failure Errno.interrupted⟩,
        ⟨20, .event EventMask.output⟩, ⟨5, .event EventMask.hangUp⟩]) rfl
  refine ⟨outcome, released ?_, accepted (by simp [Kernel.fresh])⟩
  change Concluded _ report.outcome
  rw [outcome]
  trivial

end Wait

end DatabaseClient.Socket
