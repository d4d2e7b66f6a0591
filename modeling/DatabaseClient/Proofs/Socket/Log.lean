import DatabaseClient.Proofs.Socket.Course
import DatabaseClient.Proofs.Socket.Rounds

/-!
The five waits and the logs that they leave. A log is read from its beginning: what stands in it
tells what the operation is waiting for and what is registered, and rules say which entry may come
next.
-/

set_option autoImplicit false

namespace DatabaseClient.Socket

inductive Wait : Type → Type where
  | multiplexed (descriptor : Descriptor) (timeout : Option Duration) : Wait Interest
  | oneShot (descriptor : Descriptor) (timeout : Option Duration) : Wait Interest
  | suspended (descriptor : Descriptor) (timeout : Option Duration) (cancel : Option Nat) :
    Wait Interest
  | connecting (timeout : Option Duration) : Wait Target
  | connectingSuspended (timeout : Option Duration) (cancel : Option Nat) : Wait Target

variable {ρ σ α : Type}

namespace Wait

def target : Wait ρ → ρ → Target
  | .multiplexed descriptor _, interest => ⟨descriptor, interest⟩
  | .oneShot descriptor _, interest => ⟨descriptor, interest⟩
  | .suspended descriptor _ _, interest => ⟨descriptor, interest⟩
  | .connecting _, target => target
  | .connectingSuspended _ _, target => target

def run : Wait ρ → Operation ρ σ α → σ → Kernel → Report α
  | .multiplexed descriptor timeout, operation, state, kernel =>
    Multiplexed.run operation descriptor timeout state kernel
  | .oneShot descriptor timeout, operation, state, kernel =>
    OneShot.run operation descriptor timeout state kernel
  | .suspended descriptor timeout cancel, operation, state, kernel =>
    Reactor.run operation descriptor timeout cancel state kernel
  | .connecting timeout, operation, state, kernel =>
    Multiplexed.connect operation timeout state kernel
  | .connectingSuspended timeout cancel, operation, state, kernel =>
    Reactor.connect operation timeout cancel state kernel

def call : Wait ρ → ρ → Control
  | .oneShot descriptor _, interest => .add descriptor ⟨interest, true⟩
  | wait, request => (wait.target request).add

def again : Wait ρ → Operation ρ σ α → σ → ρ → Kernel → Report α
  | .multiplexed descriptor timeout, operation, state, interest, kernel =>
    Multiplexed.wait operation (Target.mk descriptor) .retry timeout state interest kernel.clock
      kernel
  | .oneShot descriptor timeout, operation, state, interest, kernel =>
    OneShot.wait operation descriptor (timeout.map fun d => pollLimit d.nanos) state interest kernel
  | .suspended descriptor timeout cancel, operation, state, interest, kernel =>
    Reactor.wait operation (Target.mk descriptor) timeout cancel state interest kernel.clock kernel
  | .connecting timeout, operation, state, target, kernel =>
    Multiplexed.wait operation id .timeout (timeout.filter (!·.isZero)) state target kernel.clock
      kernel
  | .connectingSuspended timeout cancel, operation, state, target, kernel =>
    Reactor.wait operation id (timeout.filter (!·.isZero)) cancel state target kernel.clock kernel

def Multiplexes : Wait ρ → Prop
  | .multiplexed _ _ | .connecting _ => True
  | .oneShot _ _ | .suspended _ _ _ | .connectingSuspended _ _ => False

def Suspends : Wait ρ → Prop
  | .suspended _ _ _ | .connectingSuspended _ _ => True
  | .multiplexed _ _ | .oneShot _ _ | .connecting _ => False

theorem run_cases (wait : Wait ρ) (operation : Operation ρ σ α) (state : σ) (kernel : Kernel) :
    wait.run operation state kernel =
      operation.advance wait.call (wait.again operation) state none kernel ∨
    kernel.creation ≠ 0 ∧ wait.run operation state kernel =
      operation.resume state none kernel fun _ _ => .osFailure kernel.creation kernel := by
  have begins (next : σ → ρ → Report α) :
      (operation.resume state none kernel fun state request =>
        .created kernel (next state request)) =
        operation.resume state none kernel next ∨
      kernel.creation ≠ 0 ∧
        (operation.resume state none kernel fun state request =>
          .created kernel (next state request)) =
          operation.resume state none kernel fun _ _ => .osFailure kernel.creation kernel := by
    unfold Report.created
    by_cases created : kernel.creation = 0
    next => exact .inl (by simp only [if_pos created])
    next => exact .inr ⟨created, by simp only [if_neg created]⟩
  cases wait with
  | multiplexed | oneShot | connecting => exact begins _
  | suspended | connectingSuspended => exact .inl rfl

theorem run_created (wait : Wait ρ) (operation : Operation ρ σ α) (state : σ) {kernel : Kernel}
    (created : kernel.creation = 0) :
    wait.run operation state kernel =
      operation.advance wait.call (wait.again operation) state none kernel :=
  (wait.run_cases operation state kernel).resolve_right fun refused => refused.1 created

end Wait

def told (log : List Entry) : List (Option Readiness) := log.filterMap Entry.told?

@[simp] theorem told_step (log : List Entry) (clock : Nat) (ready : Option Readiness) :
    told (log ++ [.step clock ready]) = told log ++ [ready] := by
  simp [told, Entry.told?]

@[simp] theorem told_control (log : List Entry) (call : Control) (errno : Nat) :
    told (log ++ [.control call errno]) = told log := by
  simp [told, Entry.told?]

@[simp] theorem told_poll (log : List Entry) (limit : Option Nat) (signal : Option Signal) :
    told (log ++ [.poll limit signal]) = told log := by
  simp [told, Entry.told?]

def Entry.isPoll : Entry → Bool
  | .poll _ _ => true
  | _ => false

def Entry.register (held : List (Descriptor × Watch)) : Entry → List (Descriptor × Watch)
  | .control (.add descriptor watch) 0 => (descriptor, watch) :: held
  | .control (.modify descriptor watch) 0 =>
    held.map fun (other, kept) => if other = descriptor then (other, watch) else (other, kept)
  | .control (.remove descriptor) 0 => held.eraseP (·.1 = descriptor)
  | _ => held

def registrations (log : List Entry) : List (Descriptor × Watch) := log.foldl Entry.register []

@[simp] theorem registrations_append (log : List Entry) (entry : Entry) :
    registrations (log ++ [entry]) = entry.register (registrations log) := by
  simp [registrations]

theorem Entry.register_refused {errno : Nat} (refused : errno ≠ 0)
    (held : List (Descriptor × Watch)) (call : Control) :
    (Entry.control call errno).register held = held := by
  cases errno with
  | zero => exact absurd rfl refused
  | succ errno => cases call <;> rfl

namespace Operation

def after (operation : Operation ρ σ α) (state : σ) (told : List (Option Readiness)) : σ :=
  told.foldl (fun state ready => (operation.step state ready).1) state

def last? (operation : Operation ρ σ α) (state : σ) (told : List (Option Readiness)) :
    Option (Except Error (Step ρ α)) :=
  told.getLast?.map fun ready => (operation.step (operation.after state told.dropLast) ready).2

variable (operation : Operation ρ σ α) (initial : σ)

@[simp] theorem after_append (told : List (Option Readiness)) (ready : Option Readiness) :
    operation.after initial (told ++ [ready]) =
      (operation.step (operation.after initial told) ready).1 := by
  simp [after]

@[simp] theorem last_append (told : List (Option Readiness)) (ready : Option Readiness) :
    operation.last? initial (told ++ [ready]) =
      some (operation.step (operation.after initial told) ready).2 := by
  simp [last?]

/-- By a log, the operation is in this state and waits for what this request asks. -/
structure Asks (log : List Entry) (state : σ) (request : ρ) : Prop where
  state : operation.after initial (told log) = state
  request : operation.last? initial (told log) = some (.ok (.pending request))

variable {operation initial} {log : List Entry} {state : σ} {request : ρ}

theorem Asks.silent (asks : operation.Asks initial log state request) (entry : Entry)
    (silent : entry.told? = none) : operation.Asks initial (log ++ [entry]) state request := by
  have same : told (log ++ [entry]) = told log := by simp [told, silent]
  exact ⟨by rw [same, asks.state], by rw [same, asks.request]⟩

theorem last_step (reached : operation.after initial (told log) = state) (clock : Nat)
    (ready : Option Readiness) :
    operation.last? initial (told (log ++ [.step clock ready])) =
      some (operation.step state ready).2 := by
  rw [told_step, operation.last_append, reached]

theorem Asks.stepped (reached : operation.after initial (told log) = state) {later : σ}
    {ready : Option Readiness} (step : operation.step state ready = (later, .ok (.pending request)))
    (clock : Nat) : operation.Asks initial (log ++ [.step clock ready]) later request where
  state := by rw [told_step, operation.after_append, reached, step]
  request := by rw [last_step reached, step]

end Operation

/-- Which entry may follow a log, and how a wait may end with it. -/
structure Rules (α : Type) where
  entry : List Entry → Entry → Prop
  ending : List Entry → Outcome α → Kernel → Prop

namespace Report

structure Keeps (report : Report α) (rules : Rules α) (past : List Entry) : Prop where
  entry : ∀ before entry after, report.trace = before ++ entry :: after →
    rules.entry (past ++ before) entry
  ending : rules.ending (past ++ report.trace) report.outcome report.kernel

variable {rules : Rules α} {past : List Entry} {kernel : Kernel} {report : Report α}

theorem Keeps.end {outcome : Outcome α} (ending : rules.ending past outcome kernel) :
    (Report.ending outcome kernel).Keeps rules past where
  entry := by simp [Report.ending]
  ending := by simpa [Report.ending] using ending

theorem Keeps.log {entry : Entry} (allowed : rules.entry past entry)
    (keeps : report.Keeps rules (past ++ [entry])) :
    (Report.log entry report).Keeps rules past where
  entry := by
    intro before other after trace
    cases before with
    | nil =>
      obtain ⟨rfl, -⟩ := List.cons.inj trace
      simpa using allowed
    | cons first before =>
      obtain ⟨rfl, rest⟩ := List.cons.inj trace
      simpa using keeps.entry before other after rest
  ending := by simpa using keeps.ending

theorem Keeps.stuck (allowed : rules.entry past .stuck)
    (ending : rules.ending (past ++ [.stuck]) .stuck kernel) :
    (Report.stuck kernel).Keeps rules past :=
  Keeps.log allowed (.end ending)

theorem Keeps.created (keeps : report.Keeps rules past)
    (refused : rules.ending past (.failed (.io (.os kernel.creation))) kernel) :
    (Report.created kernel report).Keeps rules past := by
  unfold Report.created
  split
  next => exact keeps
  next => exact .end refused

theorem Keeps.called {call : Control}
    (allowed : rules.entry past (.control call (kernel.answer call)))
    (accepted : kernel.answer call = 0 → report.Keeps rules (past ++ [.control call 0]))
    (refused : kernel.answer call ≠ 0 →
      rules.ending (past ++ [.control call (kernel.answer call)])
        (.failed (.io (.os (kernel.answer call)))) (kernel.control call)) :
    (Report.called kernel call report).Keeps rules past := by
  unfold Report.called
  refine .log allowed ?_
  split
  next success =>
    rw [success]
    exact accepted success
  next failure => exact .end (refused failure)

variable {operation : Operation ρ σ α} {initial state : σ} {ready : Option Readiness}
  {next : σ → ρ → Report α}

theorem Keeps.stepped (allowed : rules.entry past (.step kernel.clock ready))
    (failed : ∀ later error, operation.step state ready = (later, .error error) →
      rules.ending (past ++ [.step kernel.clock ready]) (.failed error) kernel)
    (finished : ∀ later value, operation.step state ready = (later, .ok (.finished value)) →
      rules.ending (past ++ [.step kernel.clock ready]) (.finished value) kernel)
    (pending : ∀ later request, operation.step state ready = (later, .ok (.pending request)) →
      (next later request).Keeps rules (past ++ [.step kernel.clock ready])) :
    (operation.resume state ready kernel next).Keeps rules past := by
  unfold Operation.resume
  refine .log allowed ?_
  rcases step : operation.step state ready with ⟨later, error | request | value⟩
  next => exact .end (failed later error step)
  next => exact pending later request step
  next => exact .end (finished later value step)

theorem Keeps.resume (reached : operation.after initial (told past) = state)
    (allowed : rules.entry past (.step kernel.clock ready))
    (failed : ∀ error,
      operation.last? initial (told (past ++ [.step kernel.clock ready])) = some (.error error) →
      rules.ending (past ++ [.step kernel.clock ready]) (.failed error) kernel)
    (finished : ∀ value,
      operation.last? initial (told (past ++ [.step kernel.clock ready])) =
        some (.ok (.finished value)) →
      rules.ending (past ++ [.step kernel.clock ready]) (.finished value) kernel)
    (pending : ∀ later request,
      operation.Asks initial (past ++ [.step kernel.clock ready]) later request →
      (next later request).Keeps rules (past ++ [.step kernel.clock ready])) :
    (operation.resume state ready kernel next).Keeps rules past := by
  have result := Operation.last_step reached kernel.clock ready
  refine .stepped allowed ?_ ?_ ?_
  next => exact fun later error step => failed error (by rw [result, step])
  next => exact fun later value step => finished value (by rw [result, step])
  next => exact fun later request step => pending later request (.stepped reached step _)

end Report

end DatabaseClient.Socket
