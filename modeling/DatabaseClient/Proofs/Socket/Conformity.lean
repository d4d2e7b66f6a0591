import Mathlib.Tactic.Tauto
import DatabaseClient.Proofs.Socket.Agreement
import DatabaseClient.Proofs.Socket.Resumption

set_option autoImplicit false

namespace DatabaseClient.Socket

namespace EventMask

def readHangUp : EventMask := 0x2000

/-- There is something, and it is what the interest asks for, an error or a hang-up. The end of what
the peer sends is reported to those who read, together with input. -/
structure Conforms (mask : EventMask) (interest : Interest) : Prop where
  nonzero : mask ≠ 0
  within : mask &&& (asked interest ||| error ||| hangUp ||| readHangUp) = mask
  along : mask.has readHangUp = true → mask.has input = true ∧ interest.reads = true

instance (mask : EventMask) (interest : Interest) : Decidable (mask.Conforms interest) :=
  decidable_of_iff (mask ≠ 0 ∧ _ ∧ (_ → _))
    ⟨fun ⟨nonzero, within, along⟩ => ⟨nonzero, within, along⟩,
      fun ⟨nonzero, within, along⟩ => ⟨nonzero, within, along⟩⟩

def alarms (mask : EventMask) : Bool := mask.has (error ||| hangUp)

theorem has_union (mask bits others : EventMask) :
    mask.has (bits ||| others) = (mask.has bits || mask.has others) := by
  have parts : mask &&& (bits ||| others) = mask &&& bits ||| mask &&& others := by
    apply UInt32.toBitVec_inj.mp
    simp only [UInt32.toBitVec_and, UInt32.toBitVec_or, BitVec.and_or_distrib_left]
  rw [Bool.eq_iff_iff]
  simp only [has, parts, bne_iff_ne, ne_eq, UInt32.or_eq_zero_iff, Bool.or_eq_true]
  tauto

theorem has_of_subset {mask bits others : EventMask} (subset : others &&& bits = bits)
    (some : mask.has bits = true) : mask.has others = true := by
  simp only [has, bne_iff_ne, ne_eq] at some ⊢
  intro none
  rw [← subset, ← UInt32.and_assoc, none, UInt32.zero_and] at some
  exact some rfl

theorem has_asked (mask : EventMask) (interest : Interest) :
    mask.has (asked interest) =
      (interest.reads && mask.has input || interest.writes && mask.has output) := by
  cases interest <;> simp [asked, Interest.reads, Interest.writes, has_union]

theorem Conforms.reaches {mask : EventMask} {interest : Interest}
    (conforms : mask.Conforms interest) :
    mask.alarms = true ∨ mask.has input = true ∧ interest.reads = true ∨
      mask.has output = true ∧ interest.writes = true := by
  have one : mask.has (asked interest ||| error ||| hangUp ||| readHangUp) = true := by
    simp [has, conforms.within, conforms.nonzero]
  have along := conforms.along
  simp only [has_union, has_asked, alarms, Bool.or_eq_true, Bool.and_eq_true] at one ⊢
  tauto

structure Rouses (ready : EventMask → Readiness) : Prop where
  reader : ∀ {mask : EventMask}, mask.has input = true → (ready mask).read = true
  writer : ∀ {mask : EventMask}, mask.has output = true → (ready mask).write = true
  both : ∀ {mask : EventMask}, mask.alarms = true → ready mask = ⟨true, true⟩

theorem byFlag_rouses : Rouses byFlag where
  reader := has_of_subset (by decide)
  writer := has_of_subset (by decide)
  both {mask} alarm := by
    have reads : mask.has (input ||| priority ||| hangUp ||| error) = true :=
      has_of_subset (by decide) alarm
    have writes : mask.has (output ||| hangUp ||| error) = true := has_of_subset (by decide) alarm
    rw [byFlag, reads, writes]

theorem bySide_rouses : Rouses bySide where
  reader := has_of_subset (by decide)
  writer := has_of_subset (by decide)
  both {mask} alarm := by
    have reads : mask.has (~~~output) = true := has_of_subset (by decide) alarm
    have writes : mask.has (~~~input) = true := has_of_subset (by decide) alarm
    rw [bySide, reads, writes]

end EventMask

theorem Readiness.meets_both (interest : Interest) :
    Readiness.meets ⟨true, true⟩ interest = true := by
  cases interest <;> rfl

theorem Readiness.some_of_meets {ready : Readiness} {interest : Interest}
    (meets : ready.meets interest = true) : ¬ ready.isEmpty = true := by
  intro empty
  simp only [isEmpty, Bool.and_eq_true, Bool.not_eq_true'] at empty
  simp [Readiness.meets, empty] at meets

namespace EventMask.Rouses

variable {ready : EventMask → Readiness} (rouses : Rouses ready) {mask : EventMask}
  {interest : Interest}
include rouses

theorem meets_of_alarms (alarm : mask.alarms = true) (interest : Interest) :
    (ready mask).meets interest = true := by
  rw [rouses.both alarm]
  exact Readiness.meets_both interest

theorem some_of_alarms (alarm : mask.alarms = true) : ¬ (ready mask).isEmpty = true :=
  Readiness.some_of_meets (rouses.meets_of_alarms alarm .both)

theorem meets (conforms : mask.Conforms interest) : (ready mask).meets interest = true := by
  rcases conforms.reaches with alarm | ⟨input, reads⟩ | ⟨output, writes⟩
  next => exact rouses.meets_of_alarms alarm interest
  next => simp [Readiness.meets, rouses.reader input, reads]
  next => simp [Readiness.meets, rouses.writer output, writes]

theorem some (conforms : mask.Conforms interest) : ¬ (ready mask).isEmpty = true :=
  Readiness.some_of_meets (rouses.meets conforms)

end EventMask.Rouses

variable {ρ σ α : Type}

def Operation.Conforming (operation : Operation ρ σ α) (interest : ρ → Interest) (initial : σ)
    (log : List Entry) : Prop :=
  ∀ before limit mask after, log = before ++ .poll limit (some (.event mask)) :: after →
    ∃ request, operation.last? initial (told before) = some (.ok (.pending request)) ∧
      mask.Conforms (interest request)

def Entry.event? : Entry → Option EventMask
  | .poll _ (some (.event mask)) => some mask
  | _ => none

theorem Entry.event_eq_some {entry : Entry} {mask : EventMask} :
    entry.event? = some mask ↔ ∃ limit, entry = .poll limit (some (.event mask)) := by
  constructor
  next =>
    intro same
    rcases entry with _ | _ | ⟨limit, _ | event | _⟩ | _ <;> simp [event?] at same
    exact ⟨limit, by rw [same]⟩
  next =>
    rintro ⟨limit, rfl⟩
    rfl

def Step.request? : Except Error (Step ρ α) → Option ρ
  | .ok (.pending request) => some request
  | _ => none

theorem Step.request_eq_some {result : Except Error (Step ρ α)} {request : ρ} :
    request? result = some request ↔ result = .ok (.pending request) := by
  rcases result with error | other | value <;> simp [request?]

instance (operation : Operation ρ σ α) (interest : ρ → Interest) (initial : σ) (log : List Entry) :
    Decidable (operation.Conforming interest initial log) :=
  decidable_of_iff
    (∀ i < log.length, (log[i]?.bind Entry.event?).all fun mask =>
      ((operation.last? initial (told (log.take i))).bind Step.request?).any fun request =>
        mask.Conforms (interest request)) <| by
    simp only [Option.all_eq_true, Option.any_eq_true, Option.bind_eq_some_iff, decide_eq_true_eq,
      Entry.event_eq_some, Step.request_eq_some, Operation.Conforming]
    constructor
    next =>
      rintro conforming before limit mask after rfl
      obtain ⟨request, ⟨_, last, rfl⟩, conforms⟩ :=
        conforming before.length (by simp) mask ⟨_, by simp, limit, rfl⟩
      exact ⟨request, by simpa using last, conforms⟩
    next =>
      rintro conforming i within mask ⟨_, found, limit, rfl⟩
      rw [List.getElem?_eq_getElem within, Option.some.injEq] at found
      obtain ⟨request, last, conforms⟩ := conforming (log.take i) limit mask (log.drop (i + 1))
        (by rw [← found, ← List.drop_eq_getElem_cons within, List.take_append_drop])
      exact ⟨request, ⟨_, last, rfl⟩, conforms⟩

/-- What the run of a wait goes on with after an event that concerns both sides: the next step is
told both. A wait that removes the descriptor first makes no step if that fails, and ends with the
error. -/
inductive Alerted (removes : Prop) (outcome : Outcome α) : List Entry → Prop
  | stepped {clock : Nat} {after : List Entry} (stays : ¬ removes) :
    Alerted removes outcome (.step clock (some ⟨true, true⟩) :: after)
  | removed {descriptor : Descriptor} {clock : Nat} {after : List Entry} (leaves : removes) :
    Alerted removes outcome
      (.control (.remove descriptor) 0 :: .step clock (some ⟨true, true⟩) :: after)
  | refused {descriptor : Descriptor} {errno : Nat} (leaves : removes) (failure : errno ≠ 0)
    (ends : outcome = .failed (.io (.os errno))) :
    Alerted removes outcome [.control (.remove descriptor) errno]

namespace Report

def Alerts (removes : Prop) (report : Report α) : Prop :=
  ∀ before limit mask after, report.trace = before ++ .poll limit (some (.event mask)) :: after →
    mask.alarms = true → Alerted removes report.outcome after

variable {removes : Prop} {report : Report α} {kernel : Kernel}

theorem Alerts.end (outcome : Outcome α) : (ending outcome kernel).Alerts removes := by
  intro before limit mask after trace
  simp [ending] at trace

theorem Alerts.log {entry : Entry}
    (now : ∀ limit mask, entry = .poll limit (some (.event mask)) → mask.alarms = true →
      Alerted removes report.outcome report.trace)
    (later : report.Alerts removes) : (Report.log entry report).Alerts removes := by
  intro before limit mask after trace
  cases before with
  | nil =>
    obtain ⟨rfl, rfl⟩ := List.cons.inj trace
    exact now limit mask rfl
  | cons first before =>
    obtain ⟨rfl, rest⟩ := List.cons.inj trace
    exact later before limit mask after rest

theorem Alerts.event {limit : Option Nat} {mask : EventMask}
    (now : mask.alarms = true → Alerted removes report.outcome report.trace)
    (later : report.Alerts removes) :
    (Report.log (.poll limit (some (.event mask))) report).Alerts removes := by
  refine .log (fun _ other same alarm => ?_) later
  obtain ⟨-, rfl⟩ : _ ∧ mask = other := by simpa using same
  exact now alarm

theorem Alerts.called {call : Control} (accepted : report.Alerts removes) :
    (Report.called kernel call report).Alerts removes := by
  refine .log (by simp) ?_
  split
  next => exact accepted
  next => exact .end _

theorem Alerts.resume {operation : Operation ρ σ α} {state : σ} {ready : Option Readiness}
    {next : σ → ρ → Report α} (pending : ∀ later request, (next later request).Alerts removes) :
    (operation.resume state ready kernel next).Alerts removes := by
  refine .log (by simp) ?_
  rcases operation.step state ready with ⟨later, error | request | value⟩
  next => exact .end _
  next => exact pending later request
  next => exact .end _

theorem Alerts.advance {operation : Operation ρ σ α} {call : ρ → Control}
    {again : σ → ρ → Kernel → Report α} {state : σ} {ready : Option Readiness}
    (goes : ∀ later request, (again later request (kernel.control (call request))).Alerts removes) :
    (operation.advance call again state ready kernel).Alerts removes :=
  .resume fun later request => .called (goes later request)

end Report

theorem Alerted.called {kernel later : Kernel} {descriptor : Descriptor}
    (operation : Operation ρ σ α) (state : σ) (next : σ → ρ → Report α) :
    let report := Report.called kernel (.remove descriptor)
      (operation.resume state (some ⟨true, true⟩) later next)
    Alerted True report.outcome report.trace := by
  dsimp only [Report.called]
  split
  next accepted =>
    rw [accepted]
    exact .removed trivial
  next failure => exact .refused trivial failure rfl

def conformity (operation : Operation ρ σ α) (interest : ρ → Interest) (initial : σ) : Rules α where
  entry _ _ := True
  ending log outcome _ := operation.Conforming interest initial log →
    Blameless (operation.last? initial (told log)) outcome

section Conformity

variable {operation : Operation ρ σ α} {interest : ρ → Interest} {initial state : σ}
  {past : List Entry} {request : ρ} {kernel : Kernel}

theorem Operation.Conforming.now {limit : Option Nat} {mask : EventMask} {after : List Entry}
    (conforming : operation.Conforming interest initial
      (past ++ .poll limit (some (.event mask)) :: after))
    (asks : operation.Asks initial past state request) : mask.Conforms (interest request) := by
  obtain ⟨other, last, conforms⟩ := conforming past limit mask after rfl
  obtain rfl : request = other := by simpa [asks.request] using last
  exact conforms

theorem conformity_excuses : (conformity operation interest initial).Excuse operation initial :=
  fun blameless _ => blameless

end Conformity

theorem Multiplexed.wait_conformity (operation : Operation ρ σ α) (initial : σ)
    (target : ρ → Target) (lapse : Lapse) (timeout : Option Duration) (state : σ) (request : ρ)
    (start : Nat) (kernel : Kernel) : ∀ past, operation.Asks initial past state request →
    (wait operation target lapse timeout state request start kernel).Keeps
      (conformity operation (fun request => (target request).interest) initial) past := by
  induction state, request, start, kernel using wait_induction with
  | unreached => exact fun past _ => .end fun _ => ⟨by simp, by simp⟩
  | stuck => exact fun past _ => .stuck trivial fun _ => ⟨by simp, by simp⟩
  | retried _ _ _ ih => exact fun past asks => .log trivial (ih _ (asks.silent _ rfl))
  | lapsed =>
    intro past asks
    refine .log trivial (conformity_excuses.called trivial ?_)
    exact .end fun _ => ⟨by simp, by simp⟩
  | interrupted _ _ ih => exact fun past asks => .log trivial (ih _ (asks.silent _ rfl))
  | failed => exact fun past _ => .log trivial (.end fun _ => ⟨by simp, by simp⟩)
  | unheeded _ _ empty =>
    -- An event that conforms meets the request, so that it is not this one.
    intro past asks
    refine .log trivial (.end fun conforming => ?_)
    exact absurd empty (EventMask.byFlag_rouses.some (conforming.now asks))
  | met _ _ _ _ ih =>
    intro past asks
    refine .log trivial (conformity_excuses.called trivial ?_)
    exact conformity_excuses.advance ((asks.silent _ rfl).silent _ rfl).state trivial
      (fun _ => trivial) fun state request => ih state request _
  | mismatched _ _ _ apart =>
    intro past asks
    refine .log trivial (conformity_excuses.called trivial (.end fun conforming => ?_))
    rw [List.append_assoc] at conforming
    exact absurd (EventMask.byFlag_rouses.meets (conforming.now asks)) apart

theorem OneShot.wait_conformity (operation : Operation Interest σ α) (initial : σ)
    (descriptor : Descriptor) (limit : Option Nat) (state : σ) (interest : Interest)
    (kernel : Kernel) : ∀ past, operation.Asks initial past state interest →
    (wait operation descriptor limit state interest kernel).Keeps
      (conformity operation id initial) past := by
  induction state, interest, kernel using wait_induction with
  | stuck => exact fun past _ => .stuck trivial fun _ => ⟨by simp, by simp⟩
  | retried _ ih => exact fun past asks => .log trivial (ih _ (asks.silent _ rfl))
  | interrupted _ ih => exact fun past asks => .log trivial (ih _ (asks.silent _ rfl))
  | failed => exact fun past _ => .log trivial (.end fun _ => ⟨by simp, by simp⟩)
  | unheeded _ empty =>
    intro past asks
    refine .log trivial (.end fun conforming => ?_)
    exact absurd empty (EventMask.bySide_rouses.some (conforming.now asks))
  | met _ _ _ ih =>
    intro past asks
    refine .log trivial ?_
    exact conformity_excuses.advance (asks.silent _ rfl).state trivial (fun _ => trivial)
      fun state interest => ih state interest _
  | mismatched _ _ apart =>
    intro past asks
    refine .log trivial (.end fun conforming => ?_)
    exact absurd (EventMask.bySide_rouses.meets (conforming.now asks)) apart

theorem Multiplexed.wait_alerts (operation : Operation ρ σ α) (target : ρ → Target) (lapse : Lapse)
    (timeout : Option Duration) (state : σ) (request : ρ) (start : Nat) (kernel : Kernel) :
    (wait operation target lapse timeout state request start kernel).Alerts True := by
  induction state, request, start, kernel using wait_induction with
  | unreached => exact .end _
  | stuck => exact .log (by simp) (.end _)
  | retried _ _ _ ih => exact .log (by simp) ih
  | lapsed => exact .log (by simp) (.called (.end _))
  | interrupted _ _ ih => exact .log (by simp) ih
  | failed => exact .log (by simp) (.end _)
  | unheeded _ _ empty =>
    exact .event (fun alarm => absurd empty (EventMask.byFlag_rouses.some_of_alarms alarm)) (.end _)
  | met _ _ _ _ ih =>
    refine .event (fun alarm => ?_) (.called (.advance ih))
    rw [EventMask.byFlag_rouses.both alarm]
    exact .called operation _ _
  | mismatched _ _ _ apart =>
    exact .event (fun alarm => absurd (EventMask.byFlag_rouses.meets_of_alarms alarm _) apart)
      (.called (.end _))

theorem OneShot.wait_alerts (operation : Operation Interest σ α) (descriptor : Descriptor)
    (limit : Option Nat) (state : σ) (interest : Interest) (kernel : Kernel) :
    (wait operation descriptor limit state interest kernel).Alerts False := by
  induction state, interest, kernel using wait_induction with
  | stuck => exact .log (by simp) (.end _)
  | retried _ ih => exact .log (by simp) ih
  | interrupted _ ih => exact .log (by simp) ih
  | failed => exact .log (by simp) (.end _)
  | unheeded _ empty =>
    exact .event (fun alarm => absurd empty (EventMask.bySide_rouses.some_of_alarms alarm)) (.end _)
  | met _ _ _ ih =>
    refine .event (fun alarm => ?_) (.advance ih)
    rw [EventMask.bySide_rouses.both alarm]
    exact .stepped id
  | mismatched _ _ apart =>
    exact .event (fun alarm => absurd (EventMask.bySide_rouses.meets_of_alarms alarm _) apart)
      (.end _)

namespace Wait

theorem again_conformity {wait : Wait ρ} (blocks : ¬ wait.Suspends) (operation : Operation ρ σ α)
    (initial state : σ) (request : ρ) (kernel : Kernel) (past : List Entry)
    (asks : operation.Asks initial past state request) :
    (wait.again operation state request kernel).Keeps
      (conformity operation (fun request => (wait.target request).interest) initial) past := by
  cases wait with
  | multiplexed => exact Multiplexed.wait_conformity _ _ _ _ _ _ _ _ _ _ asks
  | oneShot => exact OneShot.wait_conformity _ _ _ _ _ _ _ _ asks
  | connecting => exact Multiplexed.wait_conformity _ _ _ _ _ _ _ _ _ _ asks
  | suspended | connectingSuspended => exact absurd trivial blocks

theorem run_conformity {wait : Wait ρ} (blocks : ¬ wait.Suspends) (operation : Operation ρ σ α)
    (state : σ) (kernel : Kernel) : (wait.run operation state kernel).Keeps
      (conformity operation (fun request => (wait.target request).interest) state) [] := by
  rcases wait.run_cases operation state kernel with begins | ⟨-, refused⟩
  next =>
    rw [begins]
    exact conformity_excuses.advance rfl trivial (fun _ => trivial)
      fun _ _ asks => again_conformity blocks _ _ _ _ _ _ asks
  next =>
    rw [refused]
    exact conformity_excuses.resume rfl trivial fun _ _ _ => .end fun _ => ⟨by simp, by simp⟩

theorem run_alerts {wait : Wait ρ} (blocks : ¬ wait.Suspends) (operation : Operation ρ σ α)
    (state : σ) (kernel : Kernel) :
    (wait.run operation state kernel).Alerts wait.Multiplexes := by
  rcases wait.run_cases operation state kernel with begins | ⟨-, refused⟩
  next =>
    rw [begins]
    refine .advance fun later request => ?_
    cases wait with
    | multiplexed | connecting => exact Multiplexed.wait_alerts _ _ _ _ _ _ _ _
    | oneShot => exact OneShot.wait_alerts _ _ _ _ _ _
    | suspended | connectingSuspended => exact absurd trivial blocks
  next =>
    rw [refused]
    exact .resume fun _ _ => .end _

/-- If each event conforms to what the operation asked last before it came, no blocking wait ends
with the mismatch fault, or with an internal error but the operation's own. And whatever the events
are, the step that follows an error or a hang-up is told that both sides are ready, and there is one
unless the descriptor cannot be removed before it. -/
theorem conforming_blameless (wait : Wait ρ) (blocks : ¬ wait.Suspends)
    (operation : Operation ρ σ α) (state : σ) (kernel : Kernel) :
    let report := wait.run operation state kernel
    (operation.Conforming (fun request => (wait.target request).interest) state report.trace →
      Blameless (operation.last? state (told report.trace)) report.outcome) ∧
    ∀ before limit mask after,
      report.trace = before ++ .poll limit (some (.event mask)) :: after → mask.alarms = true →
      Alerted wait.Multiplexes report.outcome after :=
  ⟨(run_conformity blocks operation state kernel).ending, run_alerts blocks operation state kernel⟩

/-- The peer hangs up while the operation wants to write, and then what it sent before is read. -/
theorem conforming_blameless_hangUp :
    let operation := Operation.scripted Interest Nat
    let steps : List (Except Error (Step Interest Nat)) :=
      [.ok (.pending .write), .ok (.pending .read), .ok (.finished 7)]
    let dial := Operation.scripted Target Nat
    let turns : List (Except Error (Step Target Nat)) :=
      [.ok (.pending ⟨3, .write⟩), .ok (.pending ⟨4, .read⟩), .ok (.finished 7)]
    let kernel := Kernel.fresh [⟨700, .event (EventMask.error ||| EventMask.hangUp)⟩,
      ⟨0, .event (EventMask.input ||| EventMask.readHangUp)⟩]
    let wait := Wait.oneShot 3 none
    let report := wait.run operation steps kernel
    let removing := Wait.multiplexed 3 none
    let removed := removing.run operation steps kernel
    let dialling := Wait.connecting none
    let dialled := dialling.run dial turns kernel
    (¬ wait.Suspends ∧ operation.Conforming id steps report.trace ∧
      told report.trace = [none, some ⟨true, true⟩, some ⟨true, true⟩] ∧
      report.outcome = .finished 7 ∧
      Blameless (operation.last? steps (told report.trace)) report.outcome ∧
      Alerted wait.Multiplexes report.outcome (report.trace.drop 3)) ∧
    (¬ removing.Suspends ∧ operation.Conforming id steps removed.trace ∧
      told removed.trace = [none, some ⟨true, true⟩, some ⟨true, false⟩] ∧
      removed.outcome = .finished 7 ∧
      Blameless (operation.last? steps (told removed.trace)) removed.outcome ∧
      Alerted removing.Multiplexes removed.outcome (removed.trace.drop 3)) ∧
    (¬ dialling.Suspends ∧ dial.Conforming Target.interest turns dialled.trace ∧
      told dialled.trace = [none, some ⟨true, true⟩, some ⟨true, false⟩] ∧
      dialled.outcome = .finished 7 ∧
      Blameless (dial.last? turns (told dialled.trace)) dialled.outcome ∧
      Alerted dialling.Multiplexes dialled.outcome (dialled.trace.drop 3)) := by
  intro operation steps dial turns kernel wait report removing removed dialling dialled
  refine ⟨?_, ?_, ?_⟩
  next =>
    have trace : report.trace = [.step 0 none, .control (.add 3 ⟨.write, true⟩) 0,
        .poll none (some (.event 0x18)), .step 700 (some ⟨true, true⟩),
        .control (.modify 3 ⟨.read, true⟩) 0, .poll none (some (.event 0x2001)),
        .step 700 (some ⟨true, true⟩)] := by cbv
    have conforming : operation.Conforming id steps report.trace := by
      rw [trace]
      decide
    obtain ⟨blameless, alerts⟩ := conforming_blameless wait id operation steps kernel
    refine ⟨id, conforming, by rw [trace]; rfl, by cbv, blameless conforming, ?_⟩
    exact alerts (report.trace.take 2) none 0x18 _ (by rw [trace]; rfl) (by decide)
  next =>
    have trace : removed.trace = [.step 0 none, .control (.add 3 ⟨.write, false⟩) 0,
        .poll none (some (.event 0x18)), .control (.remove 3) 0, .step 700 (some ⟨true, true⟩),
        .control (.add 3 ⟨.read, false⟩) 0, .poll none (some (.event 0x2001)),
        .control (.remove 3) 0, .step 700 (some ⟨true, false⟩)] := by cbv
    have conforming : operation.Conforming id steps removed.trace := by
      rw [trace]
      decide
    obtain ⟨blameless, alerts⟩ := conforming_blameless removing id operation steps kernel
    refine ⟨id, conforming, by rw [trace]; rfl, by cbv, blameless conforming, ?_⟩
    exact alerts (removed.trace.take 2) none 0x18 _ (by rw [trace]; rfl) (by decide)
  next =>
    have trace : dialled.trace = [.step 0 none, .control (.add 3 ⟨.write, false⟩) 0,
        .poll none (some (.event 0x18)), .control (.remove 3) 0, .step 700 (some ⟨true, true⟩),
        .control (.add 4 ⟨.read, false⟩) 0, .poll none (some (.event 0x2001)),
        .control (.remove 4) 0, .step 700 (some ⟨true, false⟩)] := by
      change (Multiplexed.start _ (fun target => target) _ _ _ _).trace = _
      cbv
    have outcome : dialled.outcome = .finished 7 := by
      change (Multiplexed.start _ (fun target => target) _ _ _ _).outcome = _
      cbv
    have conforming : dial.Conforming Target.interest turns dialled.trace := by
      rw [trace]
      decide
    obtain ⟨blameless, alerts⟩ := conforming_blameless dialling id dial turns kernel
    refine ⟨id, conforming, by rw [trace]; rfl, outcome, blameless conforming, ?_⟩
    exact alerts (dialled.trace.take 2) none 0x18 _ (by rw [trace]; rfl) (by decide)

end Wait

end DatabaseClient.Socket
