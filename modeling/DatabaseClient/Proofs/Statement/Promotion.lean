import Mathlib.Data.List.Infix
import DatabaseClient.Proofs.Statement.Issue
import DatabaseClient.Proofs.Statement.Lifetime

set_option autoImplicit false

namespace DatabaseClient.Statement

def scheduled (threshold : Nat) (name : Bytes) (earlier : Nat) : Plan :=
  if earlier < threshold then .direct
  else if earlier = threshold then .prepare name
  else .reuse name

def progress (threshold : Nat) (name : Bytes) (times : Nat) : Option Standing :=
  if times = 0 then none
  else some (if times ≤ threshold then .counted times else .prepared name)

def schedule (threshold : Nat) (name : Bytes) (times : Nat) : List Plan :=
  (List.range times).map (scheduled threshold name)

theorem schedule_succ (threshold : Nat) (name : Bytes) (times : Nat) :
    schedule threshold name (times + 1) =
      schedule threshold name times ++ [scheduled threshold name times] := by
  simp [schedule, List.range_succ]

theorem schedule_early {threshold times : Nat} (early : times ≤ threshold) (name other : Bytes) :
    schedule threshold name times = schedule threshold other times := by
  refine List.map_congr_left fun earlier member => ?_
  have before : earlier < threshold := Nat.lt_of_lt_of_le (List.mem_range.mp member) early
  simp [scheduled, before]

theorem progress_early {threshold times : Nat} (early : times ≤ threshold) (name other : Bytes) :
    progress threshold name times = progress threshold other times := by
  simp [progress, early]

theorem progress_succ {threshold : Nat} (reachable : threshold ≤ countLimit) (name : Bytes)
    (times : Nat) :
    some ((progress threshold name times).elim (Cache.initial (scheduled threshold name times))
      (Cache.advance (scheduled threshold name times))) = progress threshold name (times + 1) := by
  rcases Nat.lt_trichotomy times threshold with before | rfl | after
  next =>
    have plan : scheduled threshold name times = .direct := by simp [scheduled, before]
    have counts : progress threshold name (times + 1) = some (.counted (times + 1)) := by
      simp [progress, Nat.succ_le_of_lt before]
    rw [plan, counts]
    cases times with
    | zero => rfl
    | succ times =>
      -- Below the threshold the count is still short of its limit.
      have room : min (times + 1 + 1) countLimit = times + 1 + 1 := by omega
      simp [progress, Nat.le_of_lt before, Cache.advance, room]
  next =>
    have plan : scheduled times name times = .prepare name := by simp [scheduled]
    have known : progress times name (times + 1) = some (.prepared name) := by simp [progress]
    rw [plan, known]
    cases times with
    | zero => rfl
    | succ times => simp [progress, Cache.advance]
  next =>
    have plan : scheduled threshold name times = .reuse name := by
      simp [scheduled, Nat.not_lt_of_gt after, Nat.ne_of_gt after]
    have begun : times ≠ 0 := Nat.ne_zero_of_lt after
    have known : progress threshold name times = some (.prepared name) := by
      simp [progress, begun, Nat.not_le_of_gt after]
    have still : progress threshold name (times + 1) = some (.prepared name) := by
      simp [progress, Nat.not_le_of_gt (Nat.lt_succ_of_lt after)]
    rw [plan, known, still]
    rfl

def plansOf (query : Query) (executions : List Execution) : List Plan :=
  (executions.filter (·.query = query)).map Execution.plan

def Action.Regular (query : Query) : Action → Prop
  | .execute other choice replies =>
    replies.any Reply.invalidates = false ∧ (other = query → choice = none ∧ Succeeded replies)
  | .setCapacity _ => True
  | .reset | .setThreshold _ => False

instance (query : Query) : DecidablePred (Action.Regular query)
  | .execute other _ _ => inferInstanceAs (Decidable (_ ∧ (other = query → _)))
  | .setCapacity _ => inferInstanceAs (Decidable True)
  | .reset | .setThreshold _ => inferInstanceAs (Decidable False)

namespace Cache

/-- There is no room for another query that is to be taken up, and this one was used least recently
of all, the other included. -/
def PushesOut (cache : Cache) (query other : Query) (replies : List Reply) : Prop :=
  other ∉ cache.queries ∧ Succeeded replies ∧ cache.policy.capacity < cache.queries.length + 1 ∧
    (cache.queries ++ [other]).head? = some query

instance (cache : Cache) (query other : Query) (replies : List Reply) :
    Decidable (cache.PushesOut query other replies) :=
  inferInstanceAs (Decidable (_ ∧ _))

def Evicts (cache : Cache) (query : Query) : Action → Prop
  | .execute other _ replies => cache.PushesOut query other replies
  | .reset | .setThreshold _ | .setCapacity _ => False

instance (cache : Cache) (query : Query) : DecidablePred (cache.Evicts query)
  | .execute other _ replies => inferInstanceAs (Decidable (cache.PushesOut query other replies))
  | .reset | .setThreshold _ | .setCapacity _ => inferInstanceAs (Decidable False)

theorem mem_queries_of_record {cache : Cache} {query other : Query} {plan : Plan}
    {replies : List Reply} (harmless : replies.any Reply.invalidates = false)
    (present : query ∈ cache.queries ∨
      (query = other ∧ Succeeded replies ∧ cache.policy.threshold ≠ none))
    (spared : ¬ cache.PushesOut query other replies) :
    query ∈ (cache.record other plan replies).2.queries := by
  rcases cache.record_cases other plan replies with
    ⟨off, record⟩ | ⟨-, discarded, -⟩ | ⟨standing, -, -, known, record⟩ |
      ⟨-, -, -, refused, record⟩ | ⟨-, -, absent, admitted, record⟩
  next =>
    rw [record]
    exact present.resolve_right fun reported => reported.2.2 off
  next => simp [discards, harmless] at discarded
  next =>
    rw [record, queries_touch, List.mem_append, List.mem_filter, List.mem_singleton]
    by_cases same : query = other
    next => exact .inr same
    next => exact .inl ⟨present.resolve_right fun reported => same reported.1, by simpa using same⟩
  next =>
    rw [record]
    refine present.resolve_right fun reported => ?_
    simp [(admits_iff replies).mpr reported.2.1] at refused
  next =>
    -- The new query stands last, and only the first one may have to go.
    have new : other ∉ cache.queries := (cache.standing_eq_none_iff other).mp absent
    have order : (cache.touch other (initial plan)).queries = cache.queries ++ [other] :=
      queries_touch_new new _
    have member : query ∈ cache.queries ++ [other] := by
      rw [List.mem_append, List.mem_singleton]
      exact present.imp_right And.left
    rw [record]
    rcases (cache.touch other (initial plan)).queries_evict_cases with
      ⟨-, kept⟩ | ⟨exceeded, evicted⟩
    next => rwa [kept, order]
    next =>
      rw [order, List.length_append, List.length_singleton] at exceeded
      rw [evicted, order]
      rcases split : cache.queries ++ [other] with - | ⟨first, rest⟩
      next => simp [split] at member
      next =>
        rw [split] at member
        refine (List.mem_cons.mp member).resolve_left ?_
        rintro rfl
        exact spared ⟨new, (admits_iff replies).mp admitted, exceeded, by rw [split]; rfl⟩

theorem PushesOut.not_mem_queries {cache : Cache} {query other : Query} {replies : List Reply}
    (pushesOut : cache.PushesOut query other replies) (distinct : cache.Distinct)
    (enabled : cache.policy.threshold ≠ none)
    (harmless : replies.any Reply.invalidates = false) (plan : Plan) :
    query ∉ (cache.record other plan replies).2.queries := by
  obtain ⟨new, succeeded, exceeded, oldest⟩ := pushesOut
  have taken : cache.record other plan replies = (cache.touch other (initial plan)).evict := by
    rw [record, if_neg enabled, (cache.standing_eq_none_iff other).mpr new]
    simp [discards, harmless, (admits_iff replies).mpr succeeded]
  have order : (cache.touch other (initial plan)).queries = cache.queries ++ [other] :=
    queries_touch_new new _
  have apart : (cache.queries ++ [other]).Nodup := by
    rw [← order, ← distinct_iff]
    exact distinct.touch _ _
  rw [taken]
  rcases (cache.touch other (initial plan)).queries_evict_cases with ⟨within, -⟩ | ⟨-, evicted⟩
  next =>
    rw [order, List.length_append, List.length_singleton] at within
    exact absurd within (Nat.not_le_of_gt exceeded)
  next =>
    rw [evicted, order]
    cases split : cache.queries ++ [other] with
    | nil => simp
    | cons first rest =>
      rw [split] at oldest apart
      obtain rfl : first = query := Option.some.inj oldest
      exact (List.nodup_cons.mp apart).1

section Execution

variable {cache : Cache} {query other : Query} {choice : Option Bool} {replies : List Reply}

theorem pushesOut_plan (planned : Query) :
    (cache.plan planned choice).2.PushesOut query other replies ↔
      cache.PushesOut query other replies := by
  rw [PushesOut, PushesOut, queries_plan, policy_plan]

theorem tracked_execute (harmless : replies.any Reply.invalidates = false)
    (present : cache.standing? query ≠ none ∨
      (query = other ∧ Succeeded replies ∧ cache.policy.threshold ≠ none))
    (spared : ¬ cache.PushesOut query other replies) :
    (cache.perform (.execute other choice replies)).2.standing? query ≠ none := by
  rw [Ne, standing_eq_none_iff, Decidable.not_not] at present ⊢
  rw [perform_execute]
  exact mem_queries_of_record harmless (by simpa using present)
    fun gone => spared ((pushesOut_plan other).mp gone)

theorem evicts_iff (distinct : cache.Distinct) (enabled : cache.policy.threshold ≠ none)
    {action : Action} (regular : action.Regular query) :
    cache.Evicts query action ↔
      (cache.standing? query ≠ none ∨ ∃ choice replies, action = .execute query choice replies) ∧
        (cache.perform action).2.standing? query = none := by
  cases action with
  | execute other choice replies =>
    obtain ⟨harmless, own⟩ := regular
    constructor
    next =>
      intro pushesOut
      have member : query ∈ cache.queries ++ [other] := List.mem_of_head? pushesOut.2.2.2
      rw [List.mem_append, List.mem_singleton] at member
      refine ⟨member.imp (fun tracked absent => ?_) ?_, ?_⟩
      next => exact (cache.standing_eq_none_iff query).mp absent tracked
      next =>
        rintro rfl
        exact ⟨choice, replies, rfl⟩
      next =>
        rw [perform_execute, standing_eq_none_iff]
        exact PushesOut.not_mem_queries ((pushesOut_plan other).mpr pushesOut)
          (distinct.plan other choice) (by rwa [policy_plan]) harmless _
    next =>
      rintro ⟨present, gone⟩
      by_contra spared
      refine tracked_execute harmless (present.imp_right ?_) spared gone
      rintro ⟨_, _, same⟩
      obtain ⟨rfl, -, -⟩ := Action.execute.inj same
      exact ⟨rfl, (own rfl).2, enabled⟩
  | setCapacity capacity =>
    refine ⟨False.elim, ?_⟩
    rintro ⟨tracked | ⟨_, _, same⟩, gone⟩
    next => exact tracked gone
    next => cases same
  | reset | setThreshold => exact regular.elim

theorem standing_execute (enabled : cache.policy.threshold ≠ none)
    (harmless : replies.any Reply.invalidates = false) (succeeded : Succeeded replies)
    (spared : ¬ cache.PushesOut query query replies) :
    (cache.perform (.execute query choice replies)).2.standing? query =
      some ((cache.standing? query).elim (initial (cache.plan query choice).1)
        (advance (cache.plan query choice).1)) := by
  obtain ⟨standing, held⟩ := Option.ne_none_iff_exists'.mp
    (tracked_execute harmless (.inr ⟨rfl, succeeded, enabled⟩) spared)
  rw [held]
  rw [perform_execute] at held
  rcases standing_record held with ⟨ignored, -⟩ | ⟨-, -, advanced⟩
  next => exact absurd (ignored rfl) (by rwa [policy_plan])
  next => rw [advanced, standing_plan]

theorem standing_execute_other (different : other ≠ query)
    (harmless : replies.any Reply.invalidates = false)
    (spared : ¬ cache.PushesOut query other replies) :
    (cache.perform (.execute other choice replies)).2.standing? query = cache.standing? query := by
  have earlier {standing : Standing}
      (held : (cache.perform (.execute other choice replies)).2.standing? query = some standing) :
      cache.standing? query = some standing := by
    rw [perform_execute] at held
    rcases standing_record held with ⟨-, same⟩ | ⟨same, -, -⟩
    next => rwa [standing_plan] at same
    next => exact absurd same different
  cases held : (cache.perform (.execute other choice replies)).2.standing? query with
  | some standing => exact (earlier held).symm
  | none =>
    by_contra tracked
    exact tracked_execute harmless (.inl (Ne.symm tracked)) spared held

end Execution

theorem plan_scheduled {cache : Cache} {query : Query} {threshold times : Nat} {name : Bytes}
    (enabled : cache.policy.threshold = some threshold)
    (known : cache.standing? query = progress threshold name times) :
    ∃ other, (cache.plan query none).1 = scheduled threshold other times ∧
      (other = name ∨ times ≤ threshold) := by
  by_cases early : times ≤ threshold
  next =>
    have unprepared : cache.Unprepared query := by
      intro other
      rw [known, progress, if_pos early]
      cases times <;> simp
    have seen : cache.seen query = times := by
      rw [seen, known, progress, if_pos early]
      cases times <;> rfl
    refine ⟨statementName cache.issued, ?_, .inr early⟩
    rcases cache.plan_cases query none with
      ⟨idle, plan⟩ | ⟨other, -, -, prepared, -⟩ | ⟨limit, same, -, -, due, plan⟩
    next =>
      have below : times < threshold := by simpa [seen, unprepared] using idle threshold enabled
      simp [plan, scheduled, below]
    next => exact absurd prepared (unprepared other)
    next =>
      obtain rfl : threshold = limit := Option.some.inj (enabled.symm.trans same)
      have reached : times = threshold := by
        have : threshold ≤ cache.seen query := by simpa using due
        omega
      simp [plan, scheduled, reached]
  next =>
    have begun : times ≠ 0 := by omega
    have prepared : cache.standing? query = some (.prepared name) := by
      simp [known, progress, begun, early]
    refine ⟨name, ?_, .inl rfl⟩
    rw [plan_of_prepared (by simp [enabled]) prepared]
    have late : ¬ times < threshold ∧ times ≠ threshold := by omega
    simp [scheduled, late]

structure OnSchedule (cache : Cache) (query : Query) (threshold : Nat) (name : Bytes)
    (executions : List Execution) : Prop where
  enabled : cache.policy.threshold = some threshold
  plans : plansOf query executions = schedule threshold name (plansOf query executions).length
  known : cache.standing? query = progress threshold name (plansOf query executions).length

theorem OnSchedule.perform {cache : Cache} {query : Query} {threshold : Nat} {name : Bytes}
    {executions : List Execution} (reachable : threshold ≤ countLimit)
    (onSchedule : cache.OnSchedule query threshold name executions) {action : Action}
    (regular : action.Regular query) (spared : ¬ cache.Evicts query action) :
    ∃ name, (cache.perform action).2.OnSchedule query threshold name
      (executions ++ (cache.execution? action).toList) := by
  obtain ⟨enabled, plans, known⟩ := onSchedule
  cases action with
  | execute other choice replies =>
    obtain ⟨harmless, own⟩ := regular
    have still : (cache.perform (.execute other choice replies)).2.policy.threshold =
        some threshold := by
      rw [perform_execute, policy_record, policy_plan, enabled]
    by_cases same : other = query
    next =>
      subst same
      obtain ⟨rfl, succeeded⟩ := own rfl
      obtain ⟨given, plan, unchanged⟩ := plan_scheduled enabled known
      -- Until the query is prepared, the name in its schedule is open.
      have switch : schedule threshold name (plansOf other executions).length =
            schedule threshold given (plansOf other executions).length ∧
          progress threshold name (plansOf other executions).length =
            progress threshold given (plansOf other executions).length := by
        rcases unchanged with rfl | early
        next => exact ⟨rfl, rfl⟩
        next => exact ⟨schedule_early early _ _, progress_early early _ _⟩
      have extended : plansOf other (executions ++
          (cache.execution? (.execute other none replies)).toList) =
          plansOf other executions ++ [(cache.plan other none).1] := by
        simp [plansOf, execution?]
      refine ⟨given, still, ?_, ?_⟩
      next =>
        rw [extended, List.length_append, List.length_singleton, schedule_succ, ← plan,
          ← switch.1, ← plans]
      next =>
        rw [standing_execute (by simp [enabled]) harmless succeeded spared, extended,
          List.length_append, List.length_singleton, known, switch.2, plan]
        exact progress_succ reachable given _
    next =>
      have extended : plansOf query (executions ++
          (cache.execution? (.execute other choice replies)).toList) =
          plansOf query executions := by
        simp [plansOf, execution?, same]
      refine ⟨name, still, by rwa [extended], ?_⟩
      rw [extended, ← known]
      exact standing_execute_other same harmless spared
  | setCapacity capacity =>
    rw [execution?, Option.toList_none, List.append_nil]
    exact ⟨name, enabled, plans, known⟩
  | reset | setThreshold => exact regular.elim

theorem OnSchedule.run {cache : Cache} {query : Query} {threshold : Nat}
    (reachable : threshold ≤ countLimit) (enabled : cache.policy.threshold = some threshold)
    (untracked : cache.standing? query = none) {actions : List Action}
    (regular : ∀ action ∈ actions, action.Regular query)
    (spared : ∀ before action, before ++ [action] <+: actions →
      ¬ (cache.run before).Evicts query action) :
    ∃ name, (cache.run actions).OnSchedule query threshold name (cache.executions actions) := by
  induction actions using List.reverseRecOn with
  | nil => exact ⟨[], enabled, rfl, untracked⟩
  | append_singleton actions action ih =>
    obtain ⟨name, onSchedule⟩ := ih
      (fun action member => regular action (List.mem_append_left _ member))
      (fun before action within => spared before action (within.trans (List.prefix_append _ _)))
    rw [run_append, executions_append]
    exact onSchedule.perform reachable (regular action (by simp))
      (spared actions action List.prefix_rfl)

/-- Wherever a query begins that is not kept track of: if its executions succeed and leave the
choice to the cache, if nothing is discarded and it is never evicted, its executions go by the
schedule, whatever else runs meanwhile. Its name is new, as all names are since the last reset. -/
theorem run_scheduled (policy : Policy) (before since : List Call) (unreset : .reset ∉ since)
    (threshold : UInt32) (query : Query) (actions : List Action)
    (enabled : ((empty policy).after (before ++ since)).policy.threshold = some threshold.toNat)
    (untracked : ((empty policy).after (before ++ since)).standing? query = none)
    (regular : ∀ action ∈ actions, action.Regular query)
    (spared : ∀ earlier action, earlier ++ [action] <+: actions →
      ¬ (((empty policy).after (before ++ since)).run earlier).Evicts query action) :
    let executions := ((empty policy).after (before ++ since)).executions actions
    (∃ name, ∀ i plan, (plansOf query executions)[i]? = some plan →
      plan = scheduled threshold.toNat name i) ∧
    (((empty policy).after before).handedOut since ++ newNames executions).Nodup := by
  intro executions
  constructor
  next =>
    have reachable : threshold.toNat ≤ countLimit := Nat.le_sub_one_of_lt threshold.toNat_lt
    obtain ⟨name, onSchedule⟩ := OnSchedule.run reachable enabled untracked regular spared
    refine ⟨name, fun i plan ith => ?_⟩
    rw [onSchedule.plans, schedule, List.getElem?_map, Option.map_eq_some_iff] at ith
    obtain ⟨n, nth, rfl⟩ := ith
    obtain ⟨_, rfl⟩ := List.getElem?_eq_some_iff.mp nth
    rw [List.getElem_range]
  next =>
    have only : Action.reset ∉ actions := fun member => regular _ member
    have earlier := ((empty policy).after before).numbers_handedOut unreset
    have later := ((empty policy).after (before ++ since)).numbers_executions only
    rw [after_after] at earlier
    exact (earlier.append later).nodup

theorem run_scheduled_interleaved :
    let query : Query := ⟨Bytes.ofAscii "a", []⟩
    let second : Query := ⟨Bytes.ofAscii "b", []⟩
    let third : Query := ⟨Bytes.ofAscii "c", []⟩
    let done : List Reply := [⟨.rows, none⟩]
    let before : List Call := [.plan second (some true), .reset]
    let since : List Call := [.plan second (some true), .setThreshold (some 2)]
    let actions : List Action := [.execute query none done, .execute second (some true) done,
      .execute query none done, .execute third none done, .execute query none done,
      .execute third none [⟨.other, none⟩], .execute query none done]
    let cache := (empty ⟨some 9, 2⟩).after (before ++ since)
    let executions := cache.executions actions
    cache.standing? query = none ∧ (∀ action ∈ actions, action.Regular query) ∧
    (plansOf query executions).length = 4 ∧ (cache.run actions).standing? second = none ∧
    (∃ name, ∀ i plan, (plansOf query executions)[i]? = some plan → plan = scheduled 2 name i) ∧
    (((empty ⟨some 9, 2⟩).after before).handedOut since ++ newNames executions).Nodup := by
  intro query second third done before since actions cache executions
  have regular : ∀ action ∈ actions, action.Regular query := by decide
  have spared : ∀ earlier ∈ List.inits actions, ∀ action ∈ earlier.getLast?,
      ¬ (cache.run earlier.dropLast).Evicts query action := by decide
  obtain ⟨plans, fresh⟩ := run_scheduled ⟨some 9, 2⟩ before since (by decide) 2 query actions
    (by decide) (by decide) regular fun earlier action within => by
      simpa using spared _ ((List.mem_inits _ _).mpr within) action (by simp)
  exact ⟨by decide, regular, by decide, by decide, plans, fresh⟩

end Cache

end DatabaseClient.Statement
