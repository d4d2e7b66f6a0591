import Mathlib.Order.Bounds.Defs
import DatabaseClient.Proofs.Socket.Log

set_option autoImplicit false

namespace DatabaseClient.Socket

def Entry.call? : Entry → Option Control
  | .control call _ => some call
  | _ => none

def calls (log : List Entry) : List Control := log.filterMap Entry.call?

def Entry.rearms : Entry → Bool
  | .control (.modify _ _) _ => true
  | _ => false

def Entry.delivers : Entry → Bool
  | .poll _ (some (.event _)) => true
  | _ => false

def Entry.arm (armed : Option Watch) : Entry → Option Watch
  | .control (.add _ watch) 0 | .control (.modify _ watch) 0 => some watch
  | .control (.remove _) 0 => none
  -- The kernel forgets a watch for one event when it delivers that.
  | .poll _ (some (.event _)) => armed.filter (!·.oneShot)
  | _ => armed

def armed (log : List Entry) : Option Watch := log.foldl Entry.arm none

@[simp] theorem armed_append (log : List Entry) (entry : Entry) :
    armed (log ++ [entry]) = entry.arm (armed log) := by
  simp [armed]

-- An event that came leaves nothing to wait for until the next call.
example :
    armed [.control (.add 7 ⟨.read, true⟩) 0, .poll none (some (.event EventMask.input))] =
      none := by
  decide

namespace OneShot

variable {σ α : Type}

structure Armed (operation : Operation Interest σ α) (descriptor : Descriptor) (initial : σ)
    (log : List Entry) (interest : Interest) : Prop where
  asked : operation.last? initial (told log) = some (.ok (.pending interest))
  registered : registrations log = [(descriptor, ⟨interest, true⟩)]
  armed : armed log = some ⟨interest, true⟩

def AddedOnce (descriptor : Descriptor) (calls : List Control) : Prop :=
  ∃ interest later, calls = .add descriptor ⟨interest, true⟩ :: later ∧
    ∀ call ∈ later, ∃ interest, call = .modify descriptor ⟨interest, true⟩

structure Covers (limit : Option Nat) (timeout : Option Duration) : Prop where
  unlimited : limit = none ↔ timeout = none
  least : ∀ d, timeout = some d →
    ∃ ms, limit = some (min ms longestPoll) ∧ IsLeast {ms | d.nanos ≤ 1000000 * ms} ms
  immediate : limit = some 0 ↔ timeout.any Duration.isZero = true

theorem covers_pollLimit (timeout : Option Duration) :
    Covers (timeout.map fun d => pollLimit d.nanos) timeout where
  unlimited := Option.map_eq_none_iff
  least := by
    rintro d rfl
    refine ⟨(d.nanos + 999999) / 1000000, rfl, ?_, ?_⟩
    next =>
      change d.nanos ≤ 1000000 * _
      omega
    next =>
      intro ms covered
      change d.nanos ≤ 1000000 * ms at covered
      omega
  immediate := by
    cases timeout with
    | none => simp
    | some d =>
      simp only [Option.map_some, Option.some.injEq, Option.any_some, Duration.isZero, beq_iff_eq,
        pollLimit, longestPoll]
      omega

def Awaits (operation : Operation Interest σ α) (descriptor : Descriptor) (initial : σ)
    (log : List Entry) : Prop :=
  log.countP Entry.rearms = log.countP Entry.delivers ∧
    ∃ interest, Armed operation descriptor initial log interest

def arming (operation : Operation Interest σ α) (descriptor : Descriptor) (limit : Option Nat)
    (initial : σ) : Rules α where
  entry log
    | .step _ none => log = []
    | .step _ (some _) => ∃ before mask, log = before ++ [.poll limit (some (.event mask))]
    | .control _ _ => ∃ before clock ready, log = before ++ [.step clock ready]
    | .poll used _ => used = limit ∧ Awaits operation descriptor initial log
    | .stuck => Awaits operation descriptor initial log
  ending log _ _ := calls log = [] ∨ AddedOnce descriptor (calls log)

/-- A wait before a poll: the operation is in this state, and no event is left that did not lead to
a modification. -/
structure Watching (operation : Operation Interest σ α) (descriptor : Descriptor) (initial : σ)
    (past : List Entry) (state : σ) (interest : Interest) : Prop
    extends Armed operation descriptor initial past interest where
  state : operation.after initial (told past) = state
  once : AddedOnce descriptor (calls past)
  balanced : past.countP Entry.rearms = past.countP Entry.delivers

variable {operation : Operation Interest σ α} {descriptor : Descriptor} {limit : Option Nat}
  {initial state later : σ} {past : List Entry} {interest next : Interest}

theorem AddedOnce.silent (once : AddedOnce descriptor (calls past)) {entry : Entry}
    (silent : entry.call? = none) : AddedOnce descriptor (calls (past ++ [entry])) := by
  simpa [calls, silent] using once

theorem AddedOnce.modify (once : AddedOnce descriptor (calls past)) (interest : Interest)
    (errno : Nat) :
    AddedOnce descriptor
      (calls (past ++ [.control (.modify descriptor ⟨interest, true⟩) errno])) := by
  obtain ⟨first, others, split, modified⟩ := once
  refine ⟨first, others ++ [.modify descriptor ⟨interest, true⟩], ?_, ?_⟩
  next =>
    simp only [calls] at split
    simp [calls, split, Entry.call?]
  next =>
    intro call member
    rcases List.mem_append.mp member with before | last
    next => exact modified call before
    next => exact ⟨interest, List.mem_singleton.mp last⟩

theorem Watching.added {clock : Nat}
    (asks : operation.Asks initial [.step clock none] state interest) :
    Watching operation descriptor initial
      ([.step clock none] ++ [.control (.add descriptor ⟨interest, true⟩) 0]) state interest where
  asked := by rw [told_control, asks.request]
  registered := rfl
  armed := rfl
  state := by rw [told_control, asks.state]
  once := ⟨interest, [], rfl, by simp⟩
  balanced := rfl

theorem Watching.polled (watching : Watching operation descriptor initial past state interest)
    {signal : Option Signal} (nothing : ∀ mask, signal ≠ some (.event mask)) :
    Watching operation descriptor initial (past ++ [.poll limit signal]) state interest := by
  have quiet : (Entry.poll limit signal).delivers = false := by
    rcases signal with _ | mask | errno
    next => rfl
    next => exact absurd rfl (nothing mask)
    next => rfl
  have kept (watch : Option Watch) : (Entry.poll limit signal).arm watch = watch := by
    rcases signal with _ | mask | errno
    next => rfl
    next => exact absurd rfl (nothing mask)
    next => rfl
  constructor
  next =>
    constructor
    next => rw [told_poll, watching.asked]
    next => rw [registrations_append, watching.registered]; rfl
    next => rw [armed_append, kept, watching.armed]
  next => rw [told_poll, watching.state]
  next => exact watching.once.silent rfl
  next => simp [List.countP_append, quiet, Entry.rearms, watching.balanced]

theorem Watching.rearmed (watching : Watching operation descriptor initial past state interest)
    {mask : EventMask} {clock : Nat} {ready : Option Readiness}
    (asks : operation.Asks initial
      (past ++ [.poll limit (some (.event mask))] ++ [.step clock ready]) later next) :
    Watching operation descriptor initial
      (past ++ [.poll limit (some (.event mask))] ++ [.step clock ready] ++
        [.control (.modify descriptor ⟨next, true⟩) 0]) later next := by
  constructor
  next =>
    constructor
    next => rw [told_control, asks.request]
    next =>
      simp only [registrations_append, watching.registered]
      simp [Entry.register]
    next => rw [armed_append]; rfl
  next => rw [told_control, asks.state]
  next => exact ((watching.once.silent rfl).silent rfl).modify next 0
  next => simp [List.countP_cons, Entry.rearms, Entry.delivers, watching.balanced]

theorem Watching.awaits (watching : Watching operation descriptor initial past state interest) :
    Awaits operation descriptor initial past :=
  ⟨watching.balanced, interest, watching.toArmed⟩

theorem wait_arming (operation : Operation Interest σ α) (descriptor : Descriptor)
    (limit : Option Nat) (initial state : σ) (interest : Interest) (kernel : Kernel) :
    ∀ past, Watching operation descriptor initial past state interest →
      (wait operation descriptor limit state interest kernel).Keeps
        (arming operation descriptor limit initial) past := by
  induction state, interest, kernel using wait_induction with
  | stuck => exact fun past watching => .stuck watching.awaits (.inr (watching.once.silent rfl))
  | retried _ ih =>
    exact fun past watching => .log ⟨rfl, watching.awaits⟩ (ih _ (watching.polled (by simp)))
  | interrupted _ ih =>
    exact fun past watching => .log ⟨rfl, watching.awaits⟩ (ih _ (watching.polled (by simp)))
  | failed | unheeded | mismatched =>
    exact fun past watching =>
      .log ⟨rfl, watching.awaits⟩ (.end (.inr (watching.once.silent rfl)))
  | @met state _ _ _ mask _ _ _ ih =>
    intro past watching
    refine .log ⟨rfl, watching.awaits⟩ ?_
    have once : AddedOnce descriptor (calls (past ++ [.poll limit (some (.event mask))])) :=
      watching.once.silent rfl
    have reached :
        operation.after initial (told (past ++ [.poll limit (some (.event mask))])) = state := by
      rw [told_poll, watching.state]
    refine .resume reached ⟨past, mask, rfl⟩ (fun _ _ => .inr (once.silent rfl))
      (fun _ _ => .inr (once.silent rfl)) fun state interest asks => ?_
    refine .called ⟨_, _, _, rfl⟩ ?_ ?_
    next => exact fun _ => ih state interest _ (watching.rearmed asks)
    next => exact fun _ => .inr ((once.silent rfl).modify interest _)

theorem run_keeps_armed (operation : Operation Interest σ α) (descriptor : Descriptor)
    (timeout : Option Duration) (state : σ) (kernel : Kernel) :
    (run operation descriptor timeout state kernel).Keeps
      (arming operation descriptor (timeout.map fun d => pollLimit d.nanos) state) [] := by
  refine .resume rfl rfl (fun _ _ => .inl rfl) (fun _ _ => .inl rfl) ?_
  intro later interest asks
  refine .created (.called ⟨[], _, _, rfl⟩ ?_ ?_) (.inl rfl)
  next => exact fun _ => wait_arming _ _ _ _ _ _ _ _ (Watching.added asks)
  next => exact fun _ => .inr ⟨interest, [], rfl, by simp⟩

/-- A one-shot wait adds its descriptor once and then only modifies it. It polls nothing else than
what the operation asked last, for which the descriptor is armed, and always with the same limit.
Each event that it goes on polling after leads to one modification; nothing that brings no event
leads to any. -/
theorem run_arming (operation : Operation Interest σ α) (descriptor : Descriptor)
    (timeout : Option Duration) (state : σ) (kernel : Kernel) :
    let report := run operation descriptor timeout state kernel
    (calls report.trace = [] ∨ AddedOnce descriptor (calls report.trace)) ∧
    (∃ limit, Covers limit timeout ∧
      ∀ before used signal after, report.trace = before ++ .poll used signal :: after →
        used = limit ∧ ∃ interest, Armed operation descriptor state before interest) ∧
    (∀ before after, report.trace = before ++ .stuck :: after →
      ∃ interest, Armed operation descriptor state before interest) ∧
    (∀ before used mask between further other after,
      report.trace = before ++ .poll used (some (.event mask)) :: between ++
        .poll further (some (.event other)) :: after →
      between.countP Entry.rearms = between.countP Entry.delivers + 1) ∧
    (∀ before used signal next after,
      report.trace = before ++ .poll used signal :: next :: after →
      (∀ mask, signal ≠ some (.event mask)) →
      next = .stuck ∨ ∃ signal, next = .poll used signal) := by
  intro report
  have keeps := run_keeps_armed operation descriptor timeout state kernel
  refine ⟨keeps.ending, ⟨_, covers_pollLimit timeout, ?_⟩,
    fun before after trace => (keeps.entry before _ after trace).2, ?_, ?_⟩
  next =>
    intro before used signal after trace
    obtain ⟨same, -, armed⟩ := keeps.entry before _ after trace
    exact ⟨same, armed⟩
  next =>
    intro before used mask between further other after trace
    obtain ⟨-, first, -⟩ := keeps.entry before (.poll used (some (.event mask)))
      (between ++ .poll further (some (.event other)) :: after) (by simpa using trace)
    obtain ⟨-, second, -⟩ := keeps.entry _ _ after trace
    simp [List.countP_cons, Entry.rearms, Entry.delivers] at first second
    omega
  next =>
    intro before used signal next after trace quiet
    obtain ⟨rfl, -, -⟩ := keeps.entry before _ _ trace
    have allowed := keeps.entry (before ++ [.poll _ signal]) next after (by simpa using trace)
    cases next with
    | step clock ready =>
      cases ready with
      | none => simp [arming] at allowed
      | some ready =>
        obtain ⟨earlier, mask, same⟩ := allowed
        simp at same
        exact absurd same.2 (quiet mask)
    | control call errno =>
      obtain ⟨earlier, clock, ready, same⟩ := allowed
      simp at same
    | poll further other =>
      obtain ⟨rfl, -, -⟩ := allowed
      exact .inr ⟨other, rfl⟩
    | stuck => exact .inl rfl

end OneShot

end DatabaseClient.Socket
