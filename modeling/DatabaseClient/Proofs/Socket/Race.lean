import DatabaseClient.Proofs.Socket.Resumption

set_option autoImplicit false

namespace DatabaseClient.Socket

inductive Side where
  | reading
  | writing
deriving DecidableEq

namespace Side

def other : Side → Side
  | .reading => .writing
  | .writing => .reading

def alone : Side → Readiness
  | .reading => ⟨true, false⟩
  | .writing => ⟨false, true⟩

end Side

def Readiness.has (ready : Readiness) : Side → Bool
  | .reading => ready.read
  | .writing => ready.write

namespace Reactor

variable {ρ σ α : Type}

def brought : Signal → Readiness
  | .event mask => mask.byReactor
  | .failure _ => .none

/-- The branch of a side is there if the side is asked for, and taken if its notification has
resolved. The other side, if it is asked for too, is looked at once and comes along if it has
resolved. -/
def branch (interest : Interest) (resolved : Readiness) (side : Side) : Option Readiness :=
  if interest.readiness.has side && resolved.has side then
    some <|
      if interest.readiness.has side.other && resolved.has side.other then
        side.alone.union side.other.alone
      else side.alone
  else none

/-- One look at the branches, in an order that is not known beforehand. There may be none after an
event, so that the next event finds the notifications unheeded. -/
def look (interest : Interest) (resolved : Readiness) : Option Side → Option Readiness
  | none => none
  | some first => (branch interest resolved first).or (branch interest resolved first.other)

/-- Takes the events that come before the wait is given up, until a look finds one of the two
notifications. The schedule says which side is looked at first when so many events are left. -/
def contest (schedule : Nat → Option Side) (operation : Operation ρ σ α) (target : ρ → Target)
    (timeout : Option Duration) (cancel : Option Nat) (state : σ) (request : ρ) (start : Nat)
    (resolved : Readiness) (kernel : Kernel) : Report α :=
  match _ : kernel.arrivals with
  | [] =>
    match limit? timeout cancel start with
    | none => .stuck kernel
    | some (_, cause) => abandon (target request) cause kernel
  | first :: rest =>
    let later := kernel.deliver first rest
    match (limit? timeout cancel start).filter (·.1 ≤ 1000 * later.clock) with
    | some (_, cause) => abandon (target request) cause kernel
    | none =>
      let resolved := resolved.union (brought first.signal)
      .log (.poll none (some first.signal)) <|
        match look (target request).interest resolved (schedule rest.length) with
        | none =>
          contest schedule operation target timeout cancel state request start resolved later
        | some ready =>
          let remove := Control.remove (target request).descriptor
          let cleared := later.control remove
          .attempted later remove <|
            if ready.meets (target request).interest then
              operation.resume state (some ready) cleared fun state request =>
                let add :=
                  Control.add (target request).descriptor ⟨(target request).interest, false⟩
                .called cleared add <|
                  contest schedule operation target timeout cancel state request cleared.clock .none
                    (cleared.control add)
            else .ending (.aborted (.mismatch ready (target request).interest)) cleared
termination_by kernel.arrivals.length
decreasing_by all_goals simp [Kernel.control, Kernel.deliver, ‹kernel.arrivals = _›]

def race (schedule : Nat → Option Side) (operation : Operation ρ σ α) (target : ρ → Target)
    (timeout : Option Duration) (cancel : Option Nat) (state : σ) (kernel : Kernel) : Report α :=
  operation.resume state none kernel fun state request =>
    let add := Control.add (target request).descriptor ⟨(target request).interest, false⟩
    .called kernel add <|
      contest schedule operation target timeout cancel state request kernel.clock .none
        (kernel.control add)

theorem look_eq (interest : Interest) (resolved : Readiness) (first : Side) :
    look interest resolved (some first) =
      if (resolved.inter interest.readiness).isEmpty then none
      else some (resolved.inter interest.readiness) := by
  obtain ⟨read, write⟩ := resolved
  cases interest <;> cases first <;> cases read <;> cases write <;> rfl

theorem look_some {interest : Interest} {resolved ready : Readiness} {side : Option Side}
    (found : look interest resolved side = some ready) :
    ready.isEmpty = false ∧ ready = resolved.inter interest.readiness := by
  cases side with
  | none => simp [look] at found
  | some first =>
    rw [look_eq] at found
    by_cases empty : (resolved.inter interest.readiness).isEmpty = true
    next => simp [empty] at found
    next =>
      rw [if_neg empty] at found
      obtain rfl := Option.some.inj found
      exact ⟨Bool.eq_false_iff.mpr empty, rfl⟩

theorem look_meets {interest : Interest} {resolved ready : Readiness} {side : Option Side}
    (found : look interest resolved side = some ready) : ready.meets interest = true := by
  obtain ⟨nonempty, within⟩ := look_some found
  rw [within]
  exact Readiness.meets_inter (by rw [← within, nonempty]; simp)

theorem contest_induction {schedule : Nat → Option Side} {operation : Operation ρ σ α}
    {target : ρ → Target} {timeout : Option Duration} {cancel : Option Nat}
    {motive : σ → ρ → Nat → Readiness → Kernel → Report α → Prop}
    (stuck : ∀ {state request start notified kernel}, kernel.arrivals = [] →
      limit? timeout cancel start = none →
      motive state request start notified kernel (.stuck kernel))
    (abandoned : ∀ {state request start notified kernel time cause}, kernel.arrivals = [] →
      limit? timeout cancel start = some (time, cause) →
      motive state request start notified kernel (abandon (target request) cause kernel))
    (overdue : ∀ {state request start notified kernel first rest time cause},
      kernel.arrivals = first :: rest →
      (limit? timeout cancel start).filter (·.1 ≤ 1000 * (kernel.deliver first rest).clock) =
        some (time, cause) →
      motive state request start notified kernel (abandon (target request) cause kernel))
    (overlooked : ∀ {state request start notified kernel first rest resolved},
      kernel.arrivals = first :: rest →
      (limit? timeout cancel start).filter (·.1 ≤ 1000 * (kernel.deliver first rest).clock) =
        none →
      resolved = notified.union (brought first.signal) →
      look (target request).interest resolved (schedule rest.length) = none →
      motive state request start resolved (kernel.deliver first rest)
        (contest schedule operation target timeout cancel state request start resolved
          (kernel.deliver first rest)) →
      motive state request start notified kernel
        (.log (.poll none (some first.signal))
          (contest schedule operation target timeout cancel state request start resolved
            (kernel.deliver first rest))))
    (met : ∀ {state request start notified kernel first rest resolved ready},
      kernel.arrivals = first :: rest →
      (limit? timeout cancel start).filter (·.1 ≤ 1000 * (kernel.deliver first rest).clock) =
        none →
      resolved = notified.union (brought first.signal) →
      look (target request).interest resolved (schedule rest.length) = some ready →
      (∀ after asked, motive after asked (kernel.deliver first rest).clock .none
        (((kernel.deliver first rest).control (target request).remove).control (target asked).add)
        (contest schedule operation target timeout cancel after asked
          (kernel.deliver first rest).clock .none
          (((kernel.deliver first rest).control (target request).remove).control
            (target asked).add))) →
      motive state request start notified kernel
        (.log (.poll none (some first.signal))
          (.attempted (kernel.deliver first rest) (target request).remove
            (operation.advance (fun request => (target request).add)
              (fun state request kernel =>
                contest schedule operation target timeout cancel state request kernel.clock .none
                  kernel)
              state (some ready) ((kernel.deliver first rest).control (target request).remove)))))
    (state : σ) (request : ρ) (start : Nat) (notified : Readiness) (kernel : Kernel) :
    motive state request start notified kernel
      (contest schedule operation target timeout cancel state request start notified kernel) := by
  fun_induction contest schedule operation target timeout cancel state request start notified
    kernel with
  | case1 state request start notified kernel arrivals none => exact stuck arrivals none
  | case2 state request start notified kernel arrivals time cause given =>
    exact abandoned arrivals given
  | case3 state request start notified kernel first rest arrivals later time cause given =>
    exact overdue arrivals given
  | case4 state request start before kernel first rest arrivals later inTime notified again
      resumed =>
    split
    next unseen => exact overlooked arrivals inTime rfl unseen again
    next ready found =>
      dsimp only
      -- What a look finds was asked for, so that the check of it never fails.
      rw [if_pos (look_meets found)]
      exact met arrivals inTime rfl found resumed

end Reactor

def Entry.notify (resolved : Readiness) : Entry → Readiness
  | .control (.add _ _) _ => .none
  | .poll _ (some signal) => resolved.union (Reactor.brought signal)
  | _ => resolved

def resolved (log : List Entry) : Readiness := log.foldl Entry.notify .none

@[simp] theorem resolved_append (log : List Entry) (entry : Entry) :
    resolved (log ++ [entry]) = entry.notify (resolved log) := by
  simp [resolved]

variable {ρ σ α : Type}

def Operation.Exact (operation : Operation ρ σ α) (interest : ρ → Interest) (initial : σ)
    (log : List Entry) (ready : Readiness) : Prop :=
  ready.isEmpty = false ∧
    ∃ request, operation.last? initial (told log) = some (.ok (.pending request)) ∧
      ready = (resolved log).inter (interest request).readiness

def exactness (operation : Operation ρ σ α) (interest : ρ → Interest) (initial : σ) : Rules α where
  entry log
    | .step _ (some ready) => operation.Exact interest initial log ready
    | _ => True
  ending log outcome _ := Blameless (operation.last? initial (told log)) outcome

namespace Reactor

variable {operation : Operation ρ σ α} {initial : σ} {interest : ρ → Interest} {past : List Entry}
  {kernel : Kernel}

theorem exactness_excuses : (exactness operation interest initial).Excuse operation initial := id

theorem abandon_exact (target : Target) (cause : Cause) :
    (abandon target cause kernel).Keeps (exactness operation interest initial) past := by
  refine .log trivial (.end ?_)
  cases cause <;> exact ⟨by simp [Cause.outcome], by simp [Cause.outcome]⟩

theorem contest_exact (schedule : Nat → Option Side) (operation : Operation ρ σ α) (initial : σ)
    (target : ρ → Target) (timeout : Option Duration) (cancel : Option Nat) (state : σ)
    (request : ρ) (start : Nat) (notified : Readiness) (kernel : Kernel) : ∀ past,
    operation.Asks initial past state request → resolved past = notified →
    (contest schedule operation target timeout cancel state request start notified kernel).Keeps
      (exactness operation (fun request => (target request).interest) initial) past := by
  -- What has resolved is carried along; that it is what the log tells is the invariant.
  induction state, request, start, notified, kernel using contest_induction with
  | stuck => exact fun past _ _ => .stuck trivial ⟨by simp, by simp⟩
  | abandoned => exact fun past _ _ => abandon_exact _ _
  | overdue => exact fun past _ _ => abandon_exact _ _
  | overlooked _ _ same _ ih =>
    intro past asks earlier
    refine .log trivial (ih _ (asks.silent _ rfl) ?_)
    rw [resolved_append, earlier, same]
    rfl
  | met _ _ same found ih =>
    intro past asks earlier
    obtain ⟨nonempty, within⟩ := look_some found
    refine .log trivial (.log trivial ?_)
    refine exactness_excuses.advance ((asks.silent _ rfl).silent _ rfl).state
      ⟨nonempty, _, ((asks.silent _ rfl).silent _ rfl).request, ?_⟩ (fun _ => trivial) ?_
    next =>
      rw [resolved_append, resolved_append, earlier, within, same]
      rfl
    next => exact fun state request asks => ih state request _ asks (by rw [resolved_append]; rfl)

theorem race_exact (schedule : Nat → Option Side) (operation : Operation ρ σ α)
    (target : ρ → Target) (timeout : Option Duration) (cancel : Option Nat) (state : σ)
    (kernel : Kernel) :
    (race schedule operation target timeout cancel state kernel).Keeps
      (exactness operation (fun request => (target request).interest) state) [] := by
  refine exactness_excuses.advance rfl trivial (fun _ => trivial) fun later request asks => ?_
  exact contest_exact _ _ _ _ _ _ _ _ _ _ _ _ asks (by rw [resolved_append]; rfl)

end Reactor

namespace Report

def unpolled (report : Report α) : Report α :=
  { report with trace := report.trace.filter (!·.isPoll) }

variable {kernel : Kernel} {call : Control} {next : Report α}

@[simp] theorem unpolled_poll (limit : Option Nat) (signal : Option Signal) :
    (log (.poll limit signal) next).unpolled = next.unpolled := rfl

@[simp] theorem unpolled_attempted :
    (attempted kernel call next).unpolled = attempted kernel call next.unpolled := rfl

@[simp] theorem unpolled_called :
    (called kernel call next).unpolled = called kernel call next.unpolled := by
  unfold called
  split <;> rfl

@[simp] theorem unpolled_resume (operation : Operation ρ σ α) (state : σ)
    (ready : Option Readiness) (next : σ → ρ → Report α) :
    (operation.resume state ready kernel next).unpolled =
      operation.resume state ready kernel fun state request => (next state request).unpolled := by
  unfold Operation.resume
  rcases operation.step state ready with ⟨later, error | request | value⟩ <;> rfl

@[simp] theorem unpolled_advance (operation : Operation ρ σ α) (call : ρ → Control)
    (again : σ → ρ → Kernel → Report α) (state : σ) (ready : Option Readiness) :
    (operation.advance call again state ready kernel).unpolled =
      operation.advance call (fun state request kernel => (again state request kernel).unpolled)
        state ready kernel := by
  simp [Operation.advance]

end Report

namespace Readiness

theorem inter_union {earlier new within : Readiness}
    (unheeded : (earlier.inter within).isEmpty = true) :
    (earlier.union new).inter within = new.inter within := by
  simp only [inter, isEmpty, Bool.and_eq_true, Bool.not_eq_true'] at unheeded
  simp [inter, union, Bool.and_or_distrib_right, unheeded]

theorem inter_none (within : Readiness) : (none.inter within).isEmpty = true := rfl

end Readiness

namespace Reactor

theorem satisfied_eq (interest : Interest) (signal : Signal) :
    satisfied interest signal = (brought signal).inter interest.readiness := by
  cases signal <;> rfl

theorem contest_prompt {schedule : Nat → Option Side} (prompt : ∀ left, schedule left ≠ none)
    (operation : Operation ρ σ α) (target : ρ → Target) (timeout : Option Duration)
    (cancel : Option Nat) (state : σ) (request : ρ) (start : Nat) (notified : Readiness)
    (kernel : Kernel) :
    (notified.inter (target request).interest.readiness).isEmpty = true →
    (contest schedule operation target timeout cancel state request start notified
      kernel).unpolled = wait operation target timeout cancel state request start kernel := by
  have seen {interest : Interest} {resolved : Readiness} (left : Nat) :
      look interest resolved (schedule left) =
        if (resolved.inter interest.readiness).isEmpty then none
        else some (resolved.inter interest.readiness) := by
    obtain ⟨side, looks⟩ := Option.ne_none_iff_exists'.mp (prompt left)
    rw [looks, look_eq]
  induction state, request, start, notified, kernel using contest_induction with
  | stuck arrivals forever =>
    intro _
    rw [wait_idle arrivals, forever]
    rfl
  | abandoned arrivals given =>
    intro _
    rw [wait_idle arrivals, given]
    rfl
  | overdue arrivals given =>
    intro _
    rw [wait_arrival arrivals, given]
    rfl
  | @overlooked state request start notified kernel first rest resolved arrivals inTime same unseen
      ih =>
    intro unheeded
    have empty : (resolved.inter (target request).interest.readiness).isEmpty = true := by
      refine Decidable.byContradiction fun nonempty => ?_
      rw [seen, if_neg nonempty] at unseen
      simp at unseen
    have nothing : (satisfied (target request).interest first.signal).isEmpty = true := by
      rwa [satisfied_eq, ← Readiness.inter_union unheeded, ← same]
    rw [wait_arrival arrivals, inTime]
    exact (ih empty).trans (react_passed _ _ _ _ _ nothing).symm
  | @met state request start notified kernel first rest resolved ready arrivals inTime same found
      ih =>
    intro unheeded
    obtain ⟨nonempty, within⟩ := look_some found
    have heard : ready = satisfied (target request).interest first.signal := by
      rw [within, same, Readiness.inter_union unheeded, satisfied_eq]
    rw [heard] at nonempty ⊢
    rw [wait_arrival arrivals, inTime]
    refine Eq.trans ?_ (react_met _ _ _ _ _ (by simp [nonempty])).symm
    simp only [Report.unpolled_poll, Report.unpolled_attempted, Report.unpolled_advance]
    exact congrArg (Report.attempted _ _)
      (Operation.advance_congr fun state request => ih state request (Readiness.inter_none _))

theorem race_prompt {schedule : Nat → Option Side} (prompt : ∀ left, schedule left ≠ none)
    (operation : Operation ρ σ α) (target : ρ → Target) (timeout : Option Duration)
    (cancel : Option Nat) (state : σ) (kernel : Kernel) :
    (race schedule operation target timeout cancel state kernel).unpolled =
      start operation target timeout cancel state kernel := by
  unfold race start
  simp only [Report.unpolled_resume, Report.unpolled_called,
    contest_prompt prompt _ _ _ _ _ _ _ _ _ (Readiness.inter_none _)]

end Reactor

namespace Wait

def raced (schedule : Nat → Option Side) (wait : Wait ρ) (operation : Operation ρ σ α) (state : σ)
    (kernel : Kernel) : Report α :=
  match wait with
  | .suspended descriptor timeout cancel =>
    Reactor.race schedule operation (Target.mk descriptor) timeout cancel state kernel
  | .connectingSuspended timeout cancel =>
    Reactor.race schedule operation id (timeout.filter (!·.isZero)) cancel state kernel
  | wait => wait.run operation state kernel

/-- Whichever notification a suspended wait looks at first, however late it looks, and whatever the
events bring: each step after the first is told all that has resolved of what the operation asked
last, which is not nothing. So no wait ends with the mismatch fault, and none with an internal error
but the operation's own. If it looks after each event, it runs as if it read what it asked for off
that event, and the side looked at first does not matter. -/
theorem raced_within (schedule : Nat → Option Side) (wait : Wait ρ) (suspends : wait.Suspends)
    (operation : Operation ρ σ α) (state : σ) (kernel : Kernel) :
    let report := wait.raced schedule operation state kernel
    (∀ before clock ready after, report.trace = before ++ .step clock (some ready) :: after →
      operation.Exact (fun request => (wait.target request).interest) state before ready) ∧
    Blameless (operation.last? state (told report.trace)) report.outcome ∧
    ((∀ left, schedule left ≠ none) → report.unpolled = wait.run operation state kernel) := by
  intro report
  have keeps : report.Keeps
      (exactness operation (fun request => (wait.target request).interest) state) [] := by
    cases wait with
    | suspended => exact Reactor.race_exact _ _ _ _ _ _ _
    | connectingSuspended => exact Reactor.race_exact _ _ _ _ _ _ _
    | multiplexed | oneShot | connecting => exact suspends.elim
  refine ⟨fun before clock ready after trace => keeps.entry before _ after trace, keeps.ending,
    fun prompt => ?_⟩
  cases wait with
  | suspended => exact Reactor.race_prompt prompt _ _ _ _ _ _
  | connectingSuspended => exact Reactor.race_prompt prompt _ _ _ _ _ _
  | multiplexed | oneShot | connecting => exact suspends.elim

theorem raced_within_late :
    let operation := Operation.scripted Interest Nat
    let steps : List (Except Error (Step Interest Nat)) :=
      [.ok (.pending .write), .ok (.pending .both), .ok (.finished 7)]
    let kernel := Kernel.fresh [⟨10, .event EventMask.input⟩, ⟨10, .event EventMask.output⟩,
      ⟨10, .event EventMask.input⟩, ⟨10, .event EventMask.output⟩]
    let wait := Wait.suspended 3 none none
    let schedule : Nat → Option Side := fun left => if left = 1 then none else some .writing
    let report := wait.raced schedule operation steps kernel
    wait.Suspends ∧ told report.trace = [none, some ⟨false, true⟩, some ⟨true, true⟩] ∧
    report.outcome = .finished 7 ∧
    (wait.run operation steps kernel).outcome = .finished 7 ∧
    Blameless (operation.last? steps (told report.trace)) report.outcome := by
  intro operation steps kernel wait schedule report
  exact ⟨trivial, by cbv, by cbv, by cbv,
    (raced_within schedule wait trivial operation steps kernel).2.1⟩

end Wait

end DatabaseClient.Socket
