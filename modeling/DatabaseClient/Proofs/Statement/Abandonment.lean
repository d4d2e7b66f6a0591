import Mathlib.Data.Nat.Nth
import DatabaseClient.Proofs.Statement.Issue

set_option autoImplicit false

namespace DatabaseClient.Statement

/-- What a caller does who knows its plans by number, in the order in which it asked for them. -/
inductive Turn where
  | plan (query : Query) (choice : Option Bool)
  -- The query ran by the plan of this number, or directly if there is none.
  | report (query : Query) (number : Nat) (replies : List Reply)
  | setThreshold (threshold : Option Nat)
  | setCapacity (capacity : Nat)
  | standing (query : Query)
  | size
  | queries
  | names
  -- A plan that gets no number, so that it is never reported.
  | abandon (query : Query) (choice : Option Bool)
deriving DecidableEq

namespace Turn

def kept : Turn → Bool
  | .abandon _ _ => false
  | _ => true

def call (plans : List Plan) : Turn → Call
  | .plan query choice | .abandon query choice => .plan query choice
  | .report query number replies => .record query (plans[number]?.getD .direct) replies
  | .setThreshold threshold => .setThreshold threshold
  | .setCapacity capacity => .setCapacity capacity
  | .standing query => .standing query
  | .size => .size
  | .queries => .queries
  | .names => .names

def noted : Turn → Answer → List Plan
  | .plan _ _, .plan chosen => [chosen]
  | _, _ => []

end Turn

structure Caller where
  cache : Cache
  plans : List Plan
deriving DecidableEq

namespace Caller

def begin (policy : Policy) : Caller := ⟨.empty policy, []⟩

def answer (caller : Caller) (turn : Turn) : Answer :=
  (caller.cache.serve (turn.call caller.plans)).1

def step (caller : Caller) (turn : Turn) : Caller :=
  ⟨(caller.cache.serve (turn.call caller.plans)).2,
    caller.plans ++ turn.noted (caller.answer turn)⟩

def run (caller : Caller) (turns : List Turn) : Caller := turns.foldl step caller

theorem run_cons (caller : Caller) (turn : Turn) (rest : List Turn) :
    caller.run (turn :: rest) = (caller.step turn).run rest := rfl

def answers (caller : Caller) : List Turn → List Answer
  | [] => []
  | turn :: rest =>
    (if turn.kept then [caller.answer turn] else []) ++ (caller.step turn).answers rest

def taken (caller : Caller) (turn : Turn) : Nat := (caller.answer turn).newName?.toList.length

def wasted (caller : Caller) : List Turn → List Nat
  | [] => []
  | turn :: rest =>
    (if turn.kept = false ∧ caller.taken turn = 1 then [caller.cache.issued] else []) ++
      (caller.step turn).wasted rest

end Caller

def Standing.rename (f : Bytes → Bytes) : Standing → Standing
  | .counted times => .counted times
  | .prepared name => .prepared (f name)

def Plan.rename (f : Bytes → Bytes) : Plan → Plan
  | .direct => .direct
  | .reuse name => .reuse (f name)
  | .prepare name => .prepare (f name)

def Upkeep.rename (f : Bytes → Bytes) : Upkeep → Upkeep
  | .deallocateAll => .deallocateAll
  | .deallocate name => .deallocate (f name)

def Answer.rename (f : Bytes → Bytes) : Answer → Answer
  | .plan chosen => .plan (chosen.rename f)
  | .upkeep command => .upkeep (command.map (Upkeep.rename f))
  | .standing known => .standing (known.map (Standing.rename f))
  | .size count => .size count
  | .queries oldestFirst => .queries oldestFirst
  | .names newestFirst => .names (newestFirst.map f)
  | .done => .done

def Call.rename (f : Bytes → Bytes) : Call → Call
  | .record query reported replies => .record query (reported.rename f) replies
  | call => call

namespace Cache

variable (f : Bytes → Bytes) (issued : Nat) (cache : Cache)

def renamedEntries : List (Query × Standing) :=
  cache.entries.map fun (query, standing) => (query, standing.rename f)

def rename : Cache := ⟨cache.policy, cache.renamedEntries f, issued⟩

@[simp] theorem standing_rename (query : Query) :
    (cache.rename f issued).standing? query = (cache.standing? query).map (Standing.rename f) := by
  simp only [standing?, rename, renamedEntries]
  induction cache.entries with
  | nil => rfl
  | cons entry rest ih =>
    rw [List.map_cons, List.lookup_cons, List.lookup_cons]
    cases query == entry.1 with
    | true => rfl
    | false => exact ih

theorem plan_rename (query : Query) (choice : Option Bool) :
    (cache.rename f issued).plan query choice =
      match (cache.plan query choice).1 with
      | .prepare _ => (.prepare (statementName issued), cache.rename f (issued + 1))
      | plan => (plan.rename f, cache.rename f issued) := by
  unfold plan
  rw [standing_rename]
  cases enabled : cache.policy.threshold with
  | none => simp [rename, enabled, Plan.rename]
  | some threshold =>
    by_cases refused : choice = some false
    next => simp [rename, enabled, refused, Plan.rename]
    next =>
      rcases cache.standing? query with _ | times | name
      next =>
        by_cases due : threshold = 0 ∨ choice = some true <;>
          simp [rename, enabled, refused, due, Plan.rename]
      next =>
        by_cases due : threshold ≤ times ∨ choice = some true <;>
          simp [rename, enabled, refused, due, Plan.rename, Standing.rename]
      next => simp [rename, enabled, refused, Plan.rename, Standing.rename]

theorem touch_rename (query : Query) (standing : Standing) :
    (cache.rename f issued).touch query (standing.rename f) =
      (cache.touch query standing).rename f issued := by
  simp only [touch, without, rename, renamedEntries, List.filter_map, List.map_cons]
  rfl

theorem evict_rename :
    (cache.rename f issued).evict =
      (cache.evict.1.map (Upkeep.rename f), cache.evict.2.rename f issued) := by
  by_cases within : cache.entries.length ≤ cache.policy.capacity
  next => simp [evict, rename, renamedEntries, within]
  next =>
    simp only [evict, rename, renamedEntries, List.length_map, if_neg within, List.map_dropLast,
      List.getLast?_map, Option.map_map]
    rcases cache.entries.getLast? with _ | ⟨query, times | name⟩ <;> rfl

theorem advance_rename (plan : Plan) (standing : Standing) :
    advance (plan.rename f) (standing.rename f) = (advance plan standing).rename f := by
  cases standing <;> cases plan <;> rfl

theorem initial_rename (plan : Plan) : initial (plan.rename f) = (initial plan).rename f := by
  cases plan <;> rfl

theorem discards_rename (plan : Plan) (replies : List Reply) :
    (cache.rename f issued).discards (plan.rename f) replies = cache.discards plan replies := by
  cases plan <;> simp [discards, rename, renamedEntries, Plan.rename, Plan.prepares]

theorem record_rename (query : Query) (plan : Plan) (replies : List Reply) :
    (cache.rename f issued).record query (plan.rename f) replies =
      ((cache.record query plan replies).1.map (Upkeep.rename f),
        (cache.record query plan replies).2.rename f issued) := by
  have policy : (cache.rename f issued).policy = cache.policy := rfl
  unfold record
  rw [discards_rename, standing_rename, policy]
  by_cases off : cache.policy.threshold = none
  next => simp [off]
  next =>
    by_cases discarded : cache.discards plan replies = true
    next => simp [off, discarded, rename, renamedEntries, Upkeep.rename]
    next =>
      cases cache.standing? query with
      | some standing => simp [off, discarded, advance_rename, touch_rename]
      | none =>
        cases admits replies with
        | false => simp [off, discarded]
        | true => simp [off, discarded, initial_rename, touch_rename, evict_rename]

theorem newName_plan (query : Query) (choice : Option Bool) :
    ((cache.rename f issued).plan query choice).1.newName? =
      (cache.plan query choice).1.newName?.map fun _ => statementName issued := by
  rw [plan_rename]
  cases (cache.plan query choice).1 <;> rfl

@[simp] theorem rename_after_plan (query : Query) (choice : Option Bool) :
    (cache.plan query choice).2.rename f issued = cache.rename f issued := by
  simp [rename, renamedEntries]

theorem after_plan_rename (query : Query) (choice : Option Bool) :
    ((cache.rename f issued).plan query choice).2 =
      cache.rename f (issued + (cache.plan query choice).1.newName?.toList.length) := by
  rw [plan_rename]
  cases (cache.plan query choice).1 <;> rfl

@[simp] theorem queries_rename : (cache.rename f issued).queries = cache.queries := by
  simp [queries, oldestFirst, rename, renamedEntries, Function.comp_def]

@[simp] theorem preparedNames_rename :
    (cache.rename f issued).preparedNames = cache.preparedNames.map f := by
  simp only [preparedNames, rename, renamedEntries, List.filterMap_map, List.map_filterMap]
  apply List.filterMap_congr
  rintro ⟨query, times | name⟩ - <;> rfl

variable {f issued cache}

theorem plan_renamed {query : Query} {choice : Option Bool}
    (next : ∀ name, (cache.plan query choice).1.newName? = some name →
      f name = statementName issued) :
    ((cache.rename f issued).plan query choice).1 = (cache.plan query choice).1.rename f := by
  rw [plan_rename]
  cases chosen : (cache.plan query choice).1 with
  | direct | reuse => rfl
  | prepare name => exact congrArg Plan.prepare (next name (by rw [chosen]; rfl)).symm

theorem serve_rename {call : Call} (unreset : call ≠ .reset)
    (next : ∀ name, (cache.serve call).1.newName? = some name → f name = statementName issued) :
    (cache.rename f issued).serve (call.rename f) =
      ((cache.serve call).1.rename f, (cache.serve call).2.rename f
        (issued + (cache.serve call).1.newName?.toList.length)) := by
  cases call with
  | plan query choice =>
    simp only [Call.rename, serve, plan_renamed next, after_plan_rename, rename_after_plan]
    rfl
  | record query plan replies =>
    simp only [Call.rename, serve, record_rename]
    rfl
  | reset => exact absurd rfl unreset
  | standing query =>
    simp only [Call.rename, serve, standing_rename]
    rfl
  | size =>
    have length : (cache.rename f issued).entries.length = cache.entries.length := by
      simp [rename, renamedEntries]
    simp only [Call.rename, serve, length]
    rfl
  | queries =>
    simp only [Call.rename, serve, queries_rename]
    rfl
  | names =>
    simp only [Call.rename, serve, preparedNames_rename]
    rfl
  | setThreshold | setCapacity => rfl

end Cache

namespace Turn

theorem call_unreset (turn : Turn) (plans : List Plan) : turn.call plans ≠ .reset := by
  cases turn <;> simp [call]

theorem call_rename (f : Bytes → Bytes) (turn : Turn) (plans : List Plan) :
    turn.call (plans.map (Plan.rename f)) = (turn.call plans).rename f := by
  cases turn with
  | report query number replies =>
    simp only [call, Call.rename, List.getElem?_map]
    cases plans[number]? <;> rfl
  | _ => rfl

theorem noted_rename (f : Bytes → Bytes) (turn : Turn) (answer : Answer) :
    turn.noted (answer.rename f) = (turn.noted answer).map (Plan.rename f) := by
  cases turn <;> cases answer <;> rfl

end Turn

namespace Caller

variable (f : Bytes → Bytes) (issued : Nat) (caller : Caller)

def rename : Caller := ⟨caller.cache.rename f issued, caller.plans.map (Plan.rename f)⟩

@[simp] theorem issued_rename : (caller.rename f issued).cache.issued = issued := rfl

theorem issued_step (turn : Turn) :
    (caller.step turn).cache.issued = caller.cache.issued + caller.taken turn := by
  obtain ⟨count, grown, names⟩ := caller.cache.numbers_serve (turn.call_unreset caller.plans)
  have length : (caller.answer turn).newName?.toList.length = count := by
    rw [answer, names]
    simp
  rw [step, taken, length, grown]

theorem le_of_mem_wasted {caller : Caller} {turns : List Turn} {n : Nat}
    (member : n ∈ caller.wasted turns) : caller.cache.issued ≤ n := by
  induction turns generalizing caller with
  | nil => simp [wasted] at member
  | cons turn rest ih =>
    rcases List.mem_append.mp member with here | later
    next =>
      split at here
      next => exact Nat.le_of_eq (List.mem_singleton.mp here).symm
      next => simp at here
    next =>
      have grown := caller.issued_step turn
      have bound := ih later
      omega

variable {f issued caller}

theorem turn_renamed {turn : Turn}
    (next : ∀ name, (caller.answer turn).newName? = some name →
      f name = Cache.statementName issued) :
    (caller.rename f issued).answer turn = (caller.answer turn).rename f ∧
      (caller.rename f issued).step turn =
        (caller.step turn).rename f (issued + caller.taken turn) := by
  have served := Cache.serve_rename (turn.call_unreset caller.plans) next
  rw [← turn.call_rename] at served
  have answered : (caller.rename f issued).answer turn = (caller.answer turn).rename f :=
    congrArg Prod.fst served
  refine ⟨answered, ?_⟩
  rw [step, answered, turn.noted_rename]
  simp only [rename, served, step, List.map_append]
  rfl

variable (f issued caller) in
theorem newName_renamed (turn : Turn) :
    ((caller.rename f issued).answer turn).newName? =
      (caller.answer turn).newName?.map fun _ => Cache.statementName issued := by
  cases turn with
  | plan query choice | abandon query choice =>
    exact caller.cache.newName_plan f issued query choice
  | _ => rfl

variable (f issued caller) in
@[simp] theorem taken_renamed (turn : Turn) :
    (caller.rename f issued).taken turn = caller.taken turn := by
  rw [taken, taken, newName_renamed]
  cases (caller.answer turn).newName? <;> rfl

theorem step_abandoned {turn : Turn} (abandons : turn.kept = false) :
    (caller.rename f issued).step turn = caller.rename f (issued + caller.taken turn) := by
  cases turn with
  | abandon query choice =>
    simp only [step, Turn.call, Cache.serve, rename, Cache.after_plan_rename, Turn.noted,
      List.append_nil]
    rfl
  | _ => simp [Turn.kept] at abandons

variable (caller) in
theorem taken_cases (turn : Turn) : caller.taken turn = 0 ∨ caller.taken turn = 1 := by
  rw [taken]
  cases (caller.answer turn).newName? with
  | none => exact .inl rfl
  | some name => exact .inr rfl

theorem newName_answer {turn : Turn} {name : Bytes}
    (named : (caller.answer turn).newName? = some name) :
    name = Cache.statementName caller.cache.issued ∧ caller.taken turn = 1 := by
  have numbers := caller.cache.numbers_serve (turn.call_unreset caller.plans)
  refine ⟨numbers.of_getElem? (i := 0) ?_, by rw [taken, named]; rfl⟩
  change (caller.answer turn).newName?.toList[0]? = some name
  rw [named]
  rfl

/-- Moves the names that are handed out on to those with fresh numbers, in their order. -/
noncomputable def skipping (fresh : Nat → Prop) : Bytes → Bytes :=
  Function.extend Cache.statementName (Cache.statementName ∘ Nat.nth fresh) id

theorem skipping_statementName (fresh : Nat → Prop) (n : Nat) :
    skipping fresh (Cache.statementName n) = Cache.statementName (Nat.nth fresh n) :=
  Cache.statementName_injective.extend_apply _ _ n

theorem skipping_injective {fresh : Nat → Prop} (distinct : Function.Injective (Nat.nth fresh)) :
    Function.Injective (skipping fresh) := by
  have other {name : Bytes} (foreign : ¬ ∃ n, Cache.statementName n = name) :
      skipping fresh name = name :=
    Function.extend_apply' _ _ name foreign
  intro first second same
  by_cases one : ∃ n, Cache.statementName n = first <;>
    by_cases two : ∃ n, Cache.statementName n = second
  next =>
    obtain ⟨n, rfl⟩ := one
    obtain ⟨m, rfl⟩ := two
    rw [skipping_statementName, skipping_statementName] at same
    rw [distinct (Cache.statementName_injective same)]
  next =>
    obtain ⟨n, rfl⟩ := one
    rw [skipping_statementName, other two] at same
    exact absurd ⟨Nat.nth fresh n, same⟩ two
  next =>
    obtain ⟨m, rfl⟩ := two
    rw [skipping_statementName, other one] at same
    exact absurd ⟨Nat.nth fresh m, same.symm⟩ one
  next => rwa [other one, other two] at same

/-- Of the names that one run hands out, the fresh ones are not wasted in what is to come, and up to
now there were as many as another run, without the waste, has handed out in all. -/
structure Tracks (fresh : Nat → Prop) [DecidablePred fresh] (caller : Caller) (issued : Nat)
    (turns : List Turn) : Prop where
  level : caller.cache.issued = Nat.count fresh issued
  apart : ∀ n, issued ≤ n → (fresh n ↔ n ∉ (caller.rename (skipping fresh) issued).wasted turns)

namespace Tracks

variable {fresh : Nat → Prop} [DecidablePred fresh] {turn : Turn} {rest turns : List Turn}

theorem now (tracks : Tracks fresh caller issued (turn :: rest)) (kept : turn.kept = true)
    (hands : caller.taken turn = 1) : fresh issued := by
  apply (tracks.apart issued (Nat.le_refl _)).mpr
  intro member
  simp only [wasted, kept, Bool.true_eq_false, false_and, if_false, List.nil_append] at member
  have bound := le_of_mem_wasted member
  rw [issued_step, taken_renamed, hands] at bound
  exact Nat.not_succ_le_self issued bound

theorem turn_kept (tracks : Tracks fresh caller issued (turn :: rest)) (kept : turn.kept = true) :
    (caller.rename (skipping fresh) issued).answer turn =
        (caller.answer turn).rename (skipping fresh) ∧
      (caller.rename (skipping fresh) issued).step turn =
        (caller.step turn).rename (skipping fresh) (issued + caller.taken turn) := by
  apply turn_renamed
  intro name named
  obtain ⟨rfl, hands⟩ := newName_answer named
  rw [skipping_statementName, tracks.level, Nat.nth_count (tracks.now kept hands)]

theorem after_kept (tracks : Tracks fresh caller issued (turn :: rest)) (kept : turn.kept = true) :
    Tracks fresh (caller.step turn) (issued + caller.taken turn) rest where
  level := by
    rw [issued_step, tracks.level]
    rcases caller.taken_cases turn with none | one
    next => rw [none, Nat.add_zero, Nat.add_zero]
    next => rw [one, Nat.count_succ, if_pos (tracks.now kept one)]
  apart := by
    intro n beyond
    rw [tracks.apart n (Nat.le_of_add_right_le beyond), wasted, (tracks.turn_kept kept).2]
    simp [kept]

theorem after_abandoned (tracks : Tracks fresh caller issued (turn :: rest))
    (abandons : turn.kept = false) : Tracks fresh caller (issued + caller.taken turn) rest where
  level := by
    rw [tracks.level]
    rcases caller.taken_cases turn with none | one
    next => rw [none, Nat.add_zero]
    next =>
      have waste : ¬ fresh issued := by
        rw [tracks.apart issued (Nat.le_refl _), wasted, taken_renamed]
        simp [abandons, one]
      rw [one, Nat.count_succ, if_neg waste, Nat.add_zero]
  apart := by
    intro n beyond
    rw [tracks.apart n (Nat.le_of_add_right_le beyond), wasted, step_abandoned abandons,
      taken_renamed]
    rcases caller.taken_cases turn with none | one
    next => simp [none]
    next =>
      have later : n ≠ issued := by omega
      simp [abandons, one, later]

theorem run (tracks : Tracks fresh caller issued turns) :
    (caller.rename (skipping fresh) issued).answers turns =
        (caller.answers (turns.filter Turn.kept)).map (Answer.rename (skipping fresh)) ∧
      ∀ before, before <+: turns → ∃ later,
        (caller.rename (skipping fresh) issued).run before =
          (caller.run (before.filter Turn.kept)).rename (skipping fresh) later := by
  induction turns generalizing caller issued with
  | nil =>
    refine ⟨rfl, fun before within => ⟨issued, ?_⟩⟩
    rw [List.prefix_nil.mp within]
    rfl
  | cons turn rest ih =>
    cases kept : turn.kept with
    | true =>
      obtain ⟨answered, stepped⟩ := tracks.turn_kept kept
      obtain ⟨answers, runs⟩ := ih (tracks.after_kept kept)
      rw [List.filter_cons_of_pos kept, Caller.answers, Caller.answers, stepped, answers, answered]
      refine ⟨by simp [kept], fun before within => ?_⟩
      cases before with
      | nil => exact ⟨issued, rfl⟩
      | cons first others =>
        obtain ⟨rfl, among⟩ := List.cons_prefix_cons.mp within
        obtain ⟨later, same⟩ := runs others among
        refine ⟨later, ?_⟩
        rw [List.filter_cons_of_pos kept, run_cons, run_cons, stepped, same]
    | false =>
      obtain ⟨answers, runs⟩ := ih (tracks.after_abandoned kept)
      have dropped : (turn :: rest).filter Turn.kept = rest.filter Turn.kept := by simp [kept]
      rw [dropped, Caller.answers, step_abandoned kept, answers]
      refine ⟨by simp [kept], fun before within => ?_⟩
      cases before with
      | nil => exact ⟨issued, rfl⟩
      | cons first others =>
        obtain ⟨rfl, among⟩ := List.cons_prefix_cons.mp within
        obtain ⟨later, same⟩ := runs others among
        refine ⟨later, ?_⟩
        have gone : (first :: others).filter Turn.kept = others.filter Turn.kept := by simp [kept]
        rw [gone, run_cons, step_abandoned kept, same]

end Tracks

/-- Abandoned plans leave tracking intact. If plans that are never reported are asked for anywhere
in a run, then all else is answered as it would be without them, and after each turn the cache keeps
track of the same queries in the same order and knows the same of them, but for the names: these are
others, different ones for different ones, and in the same order. -/
theorem run_abandoned (policy : Policy) (turns : List Turn) :
    ∃ (rename : Bytes → Bytes) (number : Nat → Nat), Function.Injective rename ∧ StrictMono number ∧
      (∀ n, rename (Cache.statementName n) = Cache.statementName (number n)) ∧
      (begin policy).answers turns =
        ((begin policy).answers (turns.filter Turn.kept)).map (Answer.rename rename) ∧
      ∀ before, before <+: turns →
        let more := ((begin policy).run before).cache
        let fewer := ((begin policy).run (before.filter Turn.kept)).cache
        more.policy = fewer.policy ∧
        more.entries =
          fewer.entries.map fun (query, standing) => (query, standing.rename rename) := by
  let fresh : Nat → Prop := fun n => n ∉ (begin policy).wasted turns
  have infinite : (Set.ofPred fresh).Infinite := (List.finite_toSet _).infinite_compl
  have increasing := Nat.nth_strictMono infinite
  have tracks : Tracks fresh (begin policy) 0 turns := ⟨rfl, fun n _ => Iff.rfl⟩
  obtain ⟨answers, runs⟩ := tracks.run
  refine ⟨skipping fresh, Nat.nth fresh, skipping_injective increasing.injective, increasing,
    skipping_statementName fresh, answers, ?_⟩
  intro before within more fewer
  obtain ⟨later, same⟩ := runs before within
  have cache : more = fewer.rename (skipping fresh) later := congrArg Caller.cache same
  rw [cache]
  exact ⟨rfl, rfl⟩

example :
    let query (letter : String) : Query := ⟨Bytes.ofAscii letter, []⟩
    let turns : List Turn := [.abandon (query "a") (some true), .plan (query "b") (some true),
      .report (query "b") 0 [⟨.rows, none⟩], .standing (query "b"), .queries]
    let name := Cache.statementName 1
    (begin ⟨some 5, 100⟩).answers turns =
      [.plan (.prepare name), .upkeep none, .standing (some (.prepared name)),
        .queries [query "b"]] := by
  decide

end Caller

end DatabaseClient.Statement
