import Mathlib.Data.List.Basic
import DatabaseClient.Timeouts
import DatabaseClient.Proofs.Socket.Log

set_option autoImplicit false

namespace DatabaseClient.Socket

def Entry.opens : Entry → Bool
  | .control (.add _ _) 0 | .poll _ none => true
  | _ => false

def Poised (log : List Entry) : Prop := log.getLast?.any Entry.opens = true

@[simp] theorem poised_append (log : List Entry) (entry : Entry) :
    Poised (log ++ [entry]) ↔ entry.opens = true := by
  simp [Poised]

theorem Entry.opens_refused {errno : Nat} (refused : errno ≠ 0) (call : Control) :
    (Entry.control call errno).opens = false := by
  cases errno with
  | zero => exact absurd rfl refused
  | succ errno => cases call <;> rfl

def overflow (α : Type) (timeout : Option Duration) : Rules α where
  entry _ _ := True
  ending log outcome kernel := outcome = .aborted .deadlineOverflow ↔
    timeout.all (Kernel.reaches kernel.clock) = false ∧ Poised log

variable {ρ σ α : Type} {timeout : Option Duration} {past : List Entry} {kernel : Kernel}

theorem Kernel.reaches_mono {start later : Nat} (order : start ≤ later) {d : Duration}
    (reached : reaches later d = true) : reaches start d = true := by
  simp only [reaches, decide_eq_true_eq] at reached ⊢
  omega

theorem unreached_mono {start later : Nat} (order : start ≤ later)
    (unreached : timeout.all (Kernel.reaches start) = false) :
    timeout.all (Kernel.reaches later) = false := by
  cases timeout with
  | none => exact unreached
  | some d =>
    refine Bool.eq_false_iff.mpr fun reached => ?_
    exact absurd (Kernel.reaches_mono order reached) (Bool.eq_false_iff.mp unreached)

theorem overflow_other {entry : Entry} {outcome : Outcome α}
    (other : outcome ≠ .aborted .deadlineOverflow) (closes : entry.opens = false) :
    (overflow α timeout).ending (past ++ [entry]) outcome kernel :=
  iff_of_false other (by simp [closes])

theorem Report.Keeps.advance_overflow {operation : Operation ρ σ α} {call : ρ → Control}
    {again : σ → ρ → Kernel → Report α} {state : σ} {ready : Option Readiness}
    (goes : ∀ later request, (again later request (kernel.control (call request))).Keeps
      (overflow α timeout) (past ++ [.step kernel.clock ready] ++ [.control (call request) 0])) :
    (operation.advance call again state ready kernel).Keeps (overflow α timeout) past := by
  refine .stepped trivial ?_ ?_ fun later request _ =>
    .called trivial (fun _ => goes later request) fun refused => ?_
  next => exact fun _ _ _ => overflow_other (by simp) rfl
  next => exact fun _ _ _ => overflow_other (by simp) rfl
  next => exact overflow_other (by simp) (Entry.opens_refused refused _)

namespace Multiplexed

theorem wait_overflows (operation : Operation ρ σ α) (target : ρ → Target) (lapse : Lapse)
    (timeout : Option Duration) (state : σ) (request : ρ) (start : Nat) (kernel : Kernel) :
    ∀ past, timeout.all (Kernel.reaches start) = true ∨ start = kernel.clock ∧ Poised past →
      (wait operation target lapse timeout state request start kernel).Keeps (overflow α timeout)
        past := by
  induction state, request, start, kernel using wait_induction with
  | unreached unreached =>
    intro past begun
    obtain ⟨rfl, poised⟩ := begun.resolve_left unreached
    exact .end (iff_of_true rfl ⟨Bool.eq_false_iff.mpr unreached, poised⟩)
  | stuck => exact fun past _ => .stuck trivial (overflow_other (by simp) rfl)
  | retried _ _ _ ih =>
    exact fun past _ => .log trivial (ih _ (.inr ⟨rfl, (poised_append _ _).mpr rfl⟩))
  | lapsed =>
    intro past _
    refine .log trivial (.called trivial (fun _ => .end ?_) fun _ => ?_) <;>
      exact overflow_other (by simp) rfl
  -- The deadline is not computed again.
  | interrupted reached _ ih => exact fun past _ => .log trivial (ih _ (.inl reached))
  | failed => exact fun past _ => .log trivial (.end (overflow_other (by simp) rfl))
  | unheeded => exact fun past _ => .log trivial (.end (overflow_other (by simp) rfl))
  | met _ _ _ _ ih =>
    intro past _
    refine .log trivial (.called trivial (fun _ => ?_) fun _ => overflow_other (by simp) rfl)
    refine .advance_overflow ?_
    exact fun state request => ih state request _ (.inr ⟨rfl, (poised_append _ _).mpr rfl⟩)
  | mismatched =>
    intro past _
    refine .log trivial (.called trivial (fun _ => .end ?_) fun _ => ?_) <;>
      exact overflow_other (by simp) rfl

theorem start_unreached {operation : Operation ρ σ α} {target : ρ → Target} {lapse : Lapse}
    (unreached : timeout.all (Kernel.reaches kernel.clock) = false) {state later : σ} {request : ρ}
    (pending : operation.step state none = (later, .ok (.pending request)))
    (created : kernel.creation = 0)
    (accepted : kernel.answer
      (.add (target request).descriptor ⟨(target request).interest, false⟩) = 0) :
    start operation target lapse timeout state kernel =
      ⟨[.step kernel.clock none,
          .control (.add (target request).descriptor ⟨(target request).interest, false⟩) 0],
        .aborted .deadlineOverflow,
        kernel.control (.add (target request).descriptor ⟨(target request).interest, false⟩)⟩ := by
  simp only [start, Operation.resume, pending, Report.created, created, Report.called, accepted,
    if_true, wait_unreached (Bool.eq_false_iff.mp unreached)]
  rfl

end Multiplexed

theorem OneShot.wait_overflows (operation : Operation Interest σ α) (descriptor : Descriptor)
    (limit : Option Nat) (state : σ) (interest : Interest) (kernel : Kernel) :
    ∀ past, (wait operation descriptor limit state interest kernel).Keeps (overflow α none)
      past := by
  induction state, interest, kernel using wait_induction with
  | stuck => exact fun past => .stuck trivial (overflow_other (by simp) rfl)
  | retried _ ih => exact fun past => .log trivial (ih _)
  | interrupted _ ih => exact fun past => .log trivial (ih _)
  | failed => exact fun past => .log trivial (.end (overflow_other (by simp) rfl))
  | unheeded => exact fun past => .log trivial (.end (overflow_other (by simp) rfl))
  | met _ _ _ ih =>
    exact fun past =>
      .log trivial (.advance_overflow fun state interest => ih state interest _)
  | mismatched => exact fun past => .log trivial (.end (overflow_other (by simp) rfl))

theorem pollLimit_long {nanos : Nat} (long : longestPoll * 1000000 ≤ nanos) :
    pollLimit nanos = longestPoll := by
  have rounded : longestPoll ≤ (nanos + 999999) / 1000000 :=
    (Nat.le_div_iff_mul_le (by decide)).mpr (by omega)
  exact Nat.min_eq_right rounded

namespace Reactor

theorem abandon_overflows (target : Target) (cause : Cause) :
    (abandon target cause kernel : Report α).Keeps (overflow α none) past := by
  refine .log trivial (.end (overflow_other ?_ rfl))
  cases cause <;> simp [Cause.outcome]

theorem wait_overflows (operation : Operation ρ σ α) (target : ρ → Target)
    (timeout : Option Duration) (cancel : Option Nat) (state : σ) (request : ρ) (start : Nat)
    (kernel : Kernel) :
    ∀ past, (wait operation target timeout cancel state request start kernel).Keeps
      (overflow α none) past := by
  induction state, request, start, kernel using wait_induction with
  | stuck => exact fun past => .stuck trivial (overflow_other (by simp) rfl)
  | abandoned => exact fun past => abandon_overflows _ _
  | overdue => exact fun past => abandon_overflows _ _
  | passed _ _ _ ih => exact ih
  | met _ _ _ ih =>
    exact fun past => .log trivial (.advance_overflow fun state request => ih state request _)

theorem limit_unreached {start : Nat} (unreached : timeout.all (Kernel.reaches start) = false)
    (cancel : Option Nat) : limit? timeout cancel start = limit? none cancel start := by
  have none : timeout.filter (Kernel.reaches start) = none := by
    cases timeout with
    | none => rfl
    | some d => exact Option.filter_some_neg (by simpa using unreached)
  unfold limit?
  rw [none]
  rfl

theorem wait_unreached (operation : Operation ρ σ α) (target : ρ → Target) (cancel : Option Nat)
    (state : σ) (request : ρ) (start : Nat) (kernel : Kernel) :
    start ≤ kernel.clock → timeout.all (Kernel.reaches start) = false →
    wait operation target timeout cancel state request start kernel =
      wait operation target none cancel state request start kernel := by
  induction state, request, start, kernel using wait_induction with
  | stuck arrivals endless =>
    intro _ unreached
    rw [wait_idle arrivals, ← limit_unreached unreached cancel, endless]
  | abandoned arrivals given =>
    intro _ unreached
    rw [wait_idle arrivals, ← limit_unreached unreached cancel, given]
  | overdue arrivals given =>
    intro _ unreached
    rw [wait_arrival arrivals, ← limit_unreached unreached cancel, given]
  | passed arrivals inTime empty ih =>
    intro order unreached
    rw [wait_arrival arrivals, ← limit_unreached unreached cancel, inTime]
    dsimp only
    rw [react_passed _ _ _ _ _ empty]
    exact ih (Nat.le_trans order (Nat.le_add_right _ _)) unreached
  | met arrivals inTime nonempty ih =>
    intro order unreached
    rw [wait_arrival arrivals, ← limit_unreached unreached cancel, inTime]
    dsimp only
    rw [react_met _ _ _ _ _ nonempty]
    refine congrArg (Report.attempted _ _) (Operation.advance_congr fun state request => ?_)
    exact ih state request (Nat.le_refl _)
      (unreached_mono (Nat.le_trans order (Nat.le_add_right _ _)) unreached)

theorem start_unreached (operation : Operation ρ σ α) (target : ρ → Target) (cancel : Option Nat)
    (state : σ) (unreached : timeout.all (Kernel.reaches kernel.clock) = false) :
    start operation target timeout cancel state kernel =
      start operation target none cancel state kernel := by
  refine congrArg (operation.resume state none kernel) (funext₂ fun state request => ?_)
  exact congrArg (Report.called kernel _)
    (wait_unreached operation target cancel state request _ _ (Nat.le_refl _) unreached)

end Reactor

namespace Wait

def deadline? : Wait ρ → Option Duration
  | .multiplexed _ timeout => timeout
  | .connecting timeout => timeout.filter (!·.isZero)
  | .oneShot _ _ | .suspended _ _ _ | .connectingSuspended _ _ => none

/-- The waits differ only in a timeout that is longer than any poll or that the clock does not
reach. -/
inductive Overlong (clock : Nat) : {ρ : Type} → Wait ρ → Wait ρ → Prop where
  | oneShot {descriptor : Descriptor} {first second : Duration} :
    longestPoll * 1000000 ≤ first.nanos → longestPoll * 1000000 ≤ second.nanos →
    Overlong clock (.oneShot descriptor (some first)) (.oneShot descriptor (some second))
  | suspended {descriptor : Descriptor} {timeout : Duration} {cancel : Option Nat} :
    Kernel.reaches clock timeout = false →
    Overlong clock (.suspended descriptor (some timeout) cancel) (.suspended descriptor none cancel)
  | connectingSuspended {timeout : Duration} {cancel : Option Nat} :
    Kernel.reaches clock timeout = false →
    Overlong clock (.connectingSuspended (some timeout) cancel) (.connectingSuspended none cancel)

theorem keeps_overflow (wait : Wait ρ) (operation : Operation ρ σ α) (state : σ) (kernel : Kernel) :
    (wait.run operation state kernel).Keeps (overflow α wait.deadline?) [] := by
  rcases wait.run_cases operation state kernel with begins | ⟨-, refused⟩
  next =>
    rw [begins]
    refine .advance_overflow fun later request => ?_
    cases wait with
    | multiplexed | connecting =>
      exact Multiplexed.wait_overflows _ _ _ _ _ _ _ _ _ (.inr ⟨rfl, (poised_append _ _).mpr rfl⟩)
    | oneShot => exact OneShot.wait_overflows _ _ _ _ _ _ _
    | suspended | connectingSuspended => exact Reactor.wait_overflows _ _ _ _ _ _ _ _ _
  next =>
    rw [refused]
    refine .stepped trivial ?_ ?_ fun _ _ _ => .end (overflow_other (by simp) rfl)
    next => exact fun _ _ _ => overflow_other (by simp) rfl
    next => exact fun _ _ _ => overflow_other (by simp) rfl

theorem Overlong.run {wait other : Wait ρ} (overlong : Overlong kernel.clock wait other)
    (operation : Operation ρ σ α) (state : σ) :
    wait.run operation state kernel = other.run operation state kernel := by
  cases overlong with
  | oneShot long longer =>
    simp only [Wait.run, OneShot.run, Option.map_some, pollLimit_long long, pollLimit_long longer]
  | suspended unreached =>
    exact Reactor.start_unreached _ _ _ _ (by simpa using unreached)
  | @connectingSuspended timeout _ unreached =>
    have same : (some timeout).filter (!·.isZero) = none ∨
        (some timeout).filter (!·.isZero) = some timeout := by
      cases zero : timeout.isZero <;> simp [zero]
    simp only [Wait.run, Reactor.connect, Option.filter_none]
    rcases same with none | some
    next => rw [none]
    next =>
      rw [some]
      exact Reactor.start_unreached _ _ _ _ (by simpa using unreached)

/-- A wait is aborted for its deadline exactly if the clock does not reach the deadline when the
wait begins or, after an empty poll, begins anew; the first wait already, if the deadline is out of
reach from the beginning. Only waits that make deadlines are. The other waits take no notice of such
a timeout: it is as good as the longest poll, or as none. -/
theorem run_overflows (wait : Wait ρ) (operation : Operation ρ σ α) (state : σ) (kernel : Kernel) :
    let report := wait.run operation state kernel
    (report.outcome = .aborted .deadlineOverflow ↔
      wait.deadline?.all (Kernel.reaches report.kernel.clock) = false ∧ Poised report.trace) ∧
    (∀ later request, operation.step state none = (later, .ok (.pending request)) →
      let add :=
        Control.add (wait.target request).descriptor ⟨(wait.target request).interest, false⟩
      kernel.creation = 0 → kernel.answer add = 0 →
      wait.deadline?.all (Kernel.reaches kernel.clock) = false →
      report = ⟨[.step kernel.clock none, .control add 0], .aborted .deadlineOverflow,
        kernel.control add⟩) ∧
    ∀ other, Overlong kernel.clock wait other → report = other.run operation state kernel := by
  intro report
  refine ⟨(wait.keeps_overflow operation state kernel).ending, ?_,
    fun other overlong => overlong.run operation state⟩
  intro later request pending add created accepted unreached
  cases wait with
  | multiplexed descriptor timeout =>
    exact Multiplexed.start_unreached unreached pending created accepted
  | connecting timeout => exact Multiplexed.start_unreached unreached pending created accepted
  | oneShot | suspended | connectingSuspended => simp [deadline?] at unreached

theorem run_overflows_halved :
    let timeout : Duration := ⟨2 ^ 63 * 1000000000, by decide⟩
    let operation := Operation.scripted Target Nat
    let steps := [.ok (.pending ⟨7, .read⟩), .ok (.finished 7)]
    let kernel := Kernel.fresh [⟨0, .event EventMask.input⟩]
    (Wait.connecting (some timeout)).run operation steps kernel =
      ⟨[.step 0 none, .control (.add 7 ⟨.read, false⟩) 0], .aborted .deadlineOverflow,
        kernel.control (.add 7 ⟨.read, false⟩)⟩ ∧
    (Wait.connectingSuspended (some timeout) none).run operation steps kernel =
      (Wait.connectingSuspended none none).run operation steps kernel := by
  intro timeout operation steps kernel
  have unreached : Kernel.reaches kernel.clock timeout = false := by decide
  obtain ⟨-, aborts, -⟩ := run_overflows (.connecting (some timeout)) operation steps kernel
  obtain ⟨-, -, same⟩ :=
    run_overflows (.connectingSuspended (some timeout) none) operation steps kernel
  exact ⟨aborts _ ⟨7, .read⟩ rfl rfl (by decide) (by decide),
    same _ (.connectingSuspended unreached)⟩

/-- The longest timeout ends the program in one wait, and in the other it is a long one. A timeout
of 10^19 seconds, which a parameter string may give, ends it while a connection is made. -/
theorem run_overlong :
    let longest : Duration := ⟨(2 ^ 64 - 1) * 1000000000, by decide⟩
    let long : Duration := ⟨10 ^ 19 * 1000000000, by decide⟩
    let kernel := Kernel.fresh [⟨0, .event EventMask.input⟩]
    ((Wait.multiplexed 7 (some longest)).run (.scripted Interest Nat)
      [.ok (.pending .read), .ok (.finished 7)] kernel).outcome = .aborted .deadlineOverflow ∧
    ((Wait.oneShot 7 (some longest)).run (.scripted Interest Nat)
      [.ok (.pending .read), .ok (.finished 7)] kernel).outcome = .finished 7 ∧
    Timeouts.ofParameters "connect_timeout=1e19" = .ok ⟨none, some long⟩ ∧
    ((Wait.connecting (some long)).run (.scripted Target Nat)
      [.ok (.pending ⟨7, .read⟩), .ok (.finished 7)] kernel).outcome =
        .aborted .deadlineOverflow := by
  intro longest long kernel
  refine ⟨?_, ?_, by decide +kernel, ?_⟩
  next => cbv
  next => cbv
  next =>
    change (Multiplexed.start _ (fun target => target) _ _ _ _).outcome = _
    cbv

end Wait

end DatabaseClient.Socket
