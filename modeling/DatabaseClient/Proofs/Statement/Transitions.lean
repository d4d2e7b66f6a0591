import Mathlib.Data.List.Nodup
import DatabaseClient.Statement.Cache

set_option autoImplicit false

namespace DatabaseClient.Statement

def Plan.newName? : Plan → Option Bytes
  | .prepare name => some name
  | .direct | .reuse _ => none

theorem Plan.prepares_iff {plan : Plan} : plan.prepares = true ↔ ∃ name, plan = .prepare name := by
  cases plan <;> simp [prepares]

namespace Cache

def Distinct (cache : Cache) : Prop := (cache.entries.map Prod.fst).Nodup

theorem mem_entries_of_standing {cache : Cache} {query : Query} {standing : Standing}
    (h : cache.standing? query = some standing) : (query, standing) ∈ cache.entries := by
  obtain ⟨before, after, entries, -⟩ := List.lookup_eq_some_iff.mp h
  simp [entries]

theorem Distinct.unique {cache : Cache} (distinct : cache.Distinct) {query : Query}
    {first second : Standing} (one : (query, first) ∈ cache.entries)
    (two : (query, second) ∈ cache.entries) : first = second := by
  have same := List.inj_on_of_nodup_map distinct one two rfl
  exact (Prod.mk.inj same).2

theorem Distinct.standing {cache : Cache} (distinct : cache.Distinct) {query : Query}
    {standing : Standing} (member : (query, standing) ∈ cache.entries) :
    cache.standing? query = some standing := by
  cases found : cache.standing? query with
  | none =>
    have absent := List.lookup_eq_none_iff.mp found _ member
    simp at absent
  | some other => rw [distinct.unique (mem_entries_of_standing found) member]

theorem distinct_empty (policy : Policy) : (empty policy).Distinct := by
  simp [Distinct, empty]

@[simp] theorem mem_touch {cache : Cache} {query other : Query} {standing held : Standing} :
    (other, held) ∈ (cache.touch query standing).entries ↔
      (other = query ∧ held = standing) ∨ ((other, held) ∈ cache.entries ∧ other ≠ query) := by
  simp [touch, without]

@[simp] theorem standing_touch (cache : Cache) (query : Query) (standing : Standing) :
    (cache.touch query standing).standing? query = some standing := by
  simp [standing?, touch]

theorem Distinct.touch {cache : Cache} (distinct : cache.Distinct) (query : Query)
    (standing : Standing) : (cache.touch query standing).Distinct := by
  have kept : (cache.without query).Sublist cache.entries := List.filter_sublist
  refine List.nodup_cons.mpr ⟨?_, List.Nodup.sublist (kept.map Prod.fst) distinct⟩
  intro member
  obtain ⟨entry, present, same⟩ := List.mem_map.mp member
  simp [without, same] at present

theorem advance_eq_prepared {plan : Plan} {standing : Standing} {name : Bytes}
    (h : advance plan standing = .prepared name) :
    standing = .prepared name ∨ plan = .prepare name := by
  cases standing <;> cases plan <;> simp_all [advance]

theorem initial_eq_prepared {plan : Plan} {name : Bytes} (h : initial plan = .prepared name) :
    plan = .prepare name := by
  cases plan <;> simp_all [initial]

theorem advance_prepare {standing : Standing} {name : Bytes}
    (unprepared : ∀ other, standing ≠ .prepared other) :
    advance (.prepare name) standing = .prepared name := by
  cases standing with
  | counted times => rfl
  | prepared other => exact absurd rfl (unprepared other)

def seen (cache : Cache) (query : Query) : Nat :=
  match cache.standing? query with
  | some (.counted times) => times
  | _ => 0

def Unprepared (cache : Cache) (query : Query) : Prop :=
  ∀ name, cache.standing? query ≠ some (.prepared name)

theorem plan_cases (cache : Cache) (query : Query) (choice : Option Bool) :
    ((∀ threshold, cache.policy.threshold = some threshold → choice = some false ∨
        (cache.Unprepared query ∧ cache.seen query < threshold ∧ choice ≠ some true)) ∧
      cache.plan query choice = (.direct, cache)) ∨
    (∃ name, cache.policy.threshold ≠ none ∧ choice ≠ some false ∧
      cache.standing? query = some (.prepared name) ∧
      cache.plan query choice = (.reuse name, cache)) ∨
    (∃ threshold, cache.policy.threshold = some threshold ∧ choice ≠ some false ∧
      cache.Unprepared query ∧ (threshold ≤ cache.seen query ∨ choice = some true) ∧
      cache.plan query choice =
        (.prepare (statementName cache.issued), { cache with issued := cache.issued + 1 })) := by
  unfold plan Unprepared seen
  cases enabled : cache.policy.threshold with
  | none => simp
  | some threshold =>
    by_cases refused : choice = some false
    next => simp [refused]
    next =>
      cases standing : cache.standing? query with
      | none =>
        by_cases due : threshold = 0 ∨ choice = some true
        next => simp [refused, due]
        next =>
          simp only [not_or] at due
          simp [refused, due, Nat.pos_of_ne_zero due.1]
      | some held =>
        cases held with
        | prepared name => simp [refused]
        | counted times =>
          by_cases due : threshold ≤ times ∨ choice = some true
          next => simp [refused, due]
          next =>
            simp only [not_or] at due
            simp [refused, due, Nat.lt_of_not_le due.1]

theorem evict_cases (cache : Cache) :
    (cache.entries.length ≤ cache.policy.capacity ∧ cache.evict = (none, cache)) ∨
    (∃ rest query times, cache.policy.capacity < cache.entries.length ∧
      cache.entries = rest ++ [(query, .counted times)] ∧
      cache.evict = (none, { cache with entries := rest })) ∨
    (∃ rest query name, cache.policy.capacity < cache.entries.length ∧
      cache.entries = rest ++ [(query, .prepared name)] ∧
      cache.evict = (some (.deallocate name), { cache with entries := rest })) := by
  by_cases within : cache.entries.length ≤ cache.policy.capacity
  next => exact .inl ⟨within, by simp [evict, within]⟩
  next =>
    have exceeded : cache.policy.capacity < cache.entries.length := by omega
    right
    rcases List.eq_nil_or_concat cache.entries with entries | ⟨rest, ⟨query, standing⟩, entries⟩
    next => simp [entries] at within
    next =>
      rw [List.concat_eq_append] at entries
      have evicted : cache.evict =
          (standing.name?.map .deallocate, { cache with entries := rest }) := by
        rw [evict, if_neg within, entries]
        simp
      cases standing with
      | counted times => exact .inl ⟨rest, query, times, exceeded, entries, evicted⟩
      | prepared name => exact .inr ⟨rest, query, name, exceeded, entries, evicted⟩

theorem evict_entries (cache : Cache) :
    ∃ dropped, cache.entries = cache.evict.2.entries ++ dropped := by
  rcases evict_cases cache with
    ⟨-, evicted⟩ | ⟨rest, query, times, -, entries, evicted⟩ |
      ⟨rest, query, name, -, entries, evicted⟩ <;> rw [evicted]
  next => exact ⟨[], by simp⟩
  next => exact ⟨_, entries⟩
  next => exact ⟨_, entries⟩

theorem deallocate_of_evict {cache : Cache} {name : Bytes}
    (command : cache.evict.1 = some (.deallocate name)) :
    ∃ query, (query, .prepared name) ∈ cache.entries := by
  rcases cache.evict_cases with
    ⟨-, evicted⟩ | ⟨rest, query, times, -, -, evicted⟩ |
      ⟨rest, query, gone, -, entries, evicted⟩ <;>
    simp only [evicted, reduceCtorEq, Option.some.injEq, Upkeep.deallocate.injEq] at command
  exact ⟨query, by simp [entries, command]⟩

theorem record_cases (cache : Cache) (query : Query) (plan : Plan) (replies : List Reply) :
    (cache.policy.threshold = none ∧ cache.record query plan replies = (none, cache)) ∨
    (cache.policy.threshold ≠ none ∧ cache.discards plan replies = true ∧
      cache.record query plan replies = (some .deallocateAll, { cache with entries := [] })) ∨
    (∃ standing, cache.policy.threshold ≠ none ∧ cache.discards plan replies = false ∧
      cache.standing? query = some standing ∧
      cache.record query plan replies = (none, cache.touch query (advance plan standing))) ∨
    (cache.policy.threshold ≠ none ∧ cache.discards plan replies = false ∧
      cache.standing? query = none ∧ admits replies = false ∧
      cache.record query plan replies = (none, cache)) ∨
    (cache.policy.threshold ≠ none ∧ cache.discards plan replies = false ∧
      cache.standing? query = none ∧ admits replies = true ∧
      cache.record query plan replies = (cache.touch query (initial plan)).evict) := by
  unfold record
  cases enabled : cache.policy.threshold with
  | none => simp
  | some threshold =>
    cases discarded : cache.discards plan replies with
    | true => simp
    | false =>
      cases cache.standing? query with
      | some standing => simp
      | none => cases admits replies <;> simp

theorem deallocate_of_record {cache : Cache} {query : Query} {plan : Plan} {replies : List Reply}
    {name : Bytes} (command : (cache.record query plan replies).1 = some (.deallocate name)) :
    (∃ other, (other, .prepared name) ∈ cache.entries) ∨ plan = .prepare name := by
  rcases cache.record_cases query plan replies with
    ⟨-, record⟩ | ⟨-, -, record⟩ | ⟨standing, -, -, -, record⟩ | ⟨-, -, -, -, record⟩ |
      ⟨-, -, -, -, record⟩ <;> rw [record] at command
  case inr.inr.inr.inr =>
    obtain ⟨other, member⟩ := deallocate_of_evict command
    rcases mem_touch.mp member with ⟨-, prepared⟩ | ⟨earlier, -⟩
    next => exact .inr (initial_eq_prepared prepared.symm)
    next => exact .inl ⟨other, earlier⟩
  all_goals simp at command

theorem reset_cases (cache : Cache) :
    (cache.issued = 0 ∧ cache.reset = (none, cache)) ∨
    (cache.issued ≠ 0 ∧
      cache.reset = (some .deallocateAll, { cache with entries := [], issued := 0 })) := by
  by_cases unused : cache.issued = 0 <;> simp [reset, unused]

@[simp] theorem entries_plan (cache : Cache) (query : Query) (choice : Option Bool) :
    (cache.plan query choice).2.entries = cache.entries := by
  rcases plan_cases cache query choice with
    ⟨-, plan⟩ | ⟨name, -, -, -, plan⟩ | ⟨threshold, -, -, -, -, plan⟩ <;> rw [plan]

@[simp] theorem policy_plan (cache : Cache) (query : Query) (choice : Option Bool) :
    (cache.plan query choice).2.policy = cache.policy := by
  rcases plan_cases cache query choice with
    ⟨-, plan⟩ | ⟨name, -, -, -, plan⟩ | ⟨threshold, -, -, -, -, plan⟩ <;> rw [plan]

@[simp] theorem standing_plan (cache : Cache) (query other : Query) (choice : Option Bool) :
    (cache.plan query choice).2.standing? other = cache.standing? other := by
  simp [standing?]

theorem issued_le_plan (cache : Cache) (query : Query) (choice : Option Bool) :
    cache.issued ≤ (cache.plan query choice).2.issued := by
  rcases plan_cases cache query choice with
    ⟨-, plan⟩ | ⟨name, -, -, -, plan⟩ | ⟨threshold, -, -, -, -, plan⟩ <;> simp [plan]

theorem plan_prepare {cache : Cache} {query : Query} {choice : Option Bool} {name : Bytes}
    (h : (cache.plan query choice).1 = .prepare name) :
    cache.policy.threshold ≠ none ∧ cache.Unprepared query ∧ name = statementName cache.issued ∧
      (cache.plan query choice).2.issued = cache.issued + 1 := by
  rcases plan_cases cache query choice with
    ⟨-, plan⟩ | ⟨other, -, -, -, plan⟩ | ⟨threshold, enabled, -, unprepared, -, plan⟩ <;>
    simp only [plan, reduceCtorEq, Plan.prepare.injEq] at h
  exact ⟨by simp [enabled], unprepared, h.symm, by rw [plan]⟩

theorem plan_reuse {cache : Cache} {query : Query} {choice : Option Bool} {name : Bytes}
    (h : (cache.plan query choice).1 = .reuse name) :
    cache.policy.threshold ≠ none ∧ cache.standing? query = some (.prepared name) := by
  rcases plan_cases cache query choice with
    ⟨-, plan⟩ | ⟨other, enabled, -, known, plan⟩ | ⟨threshold, -, -, -, -, plan⟩ <;>
    simp only [plan, reduceCtorEq, Plan.reuse.injEq] at h
  exact ⟨enabled, h ▸ known⟩

theorem Distinct.evict {cache : Cache} (distinct : cache.Distinct) : cache.evict.2.Distinct := by
  obtain ⟨dropped, entries⟩ := evict_entries cache
  rw [Distinct, entries, List.map_append] at distinct
  exact distinct.of_append_left

theorem Distinct.plan {cache : Cache} (distinct : cache.Distinct) (query : Query)
    (choice : Option Bool) : (cache.plan query choice).2.Distinct := by
  rwa [Distinct, entries_plan]

theorem Distinct.record {cache : Cache} (distinct : cache.Distinct) (query : Query) (plan : Plan)
    (replies : List Reply) : (cache.record query plan replies).2.Distinct := by
  rcases record_cases cache query plan replies with
    ⟨-, record⟩ | ⟨-, -, record⟩ | ⟨standing, -, -, -, record⟩ | ⟨-, -, -, -, record⟩ |
      ⟨-, -, -, -, record⟩ <;> rw [record]
  case inr.inl => exact List.nodup_nil
  case inr.inr.inl => exact distinct.touch query _
  case inr.inr.inr.inr => exact (distinct.touch query _).evict
  all_goals exact distinct

theorem plan_of_prepared {cache : Cache} {query : Query} {name : Bytes}
    (enabled : cache.policy.threshold ≠ none)
    (known : cache.standing? query = some (.prepared name)) :
    (cache.plan query none).1 = .reuse name := by
  rcases plan_cases cache query none with
    ⟨idle, -⟩ | ⟨other, -, -, same, plan⟩ | ⟨threshold, -, -, unprepared, -, -⟩
  next =>
    obtain ⟨threshold, on⟩ := Option.ne_none_iff_exists'.mp enabled
    rcases idle threshold on with refused | ⟨unprepared, -⟩
    next => simp at refused
    next => exact absurd known (unprepared name)
  next =>
    rw [known] at same
    cases same
    rw [plan]
  next => exact absurd known (unprepared name)

@[simp] theorem issued_evict (cache : Cache) : cache.evict.2.issued = cache.issued := by
  unfold evict
  split <;> rfl

@[simp] theorem policy_evict (cache : Cache) : cache.evict.2.policy = cache.policy := by
  unfold evict
  split <;> rfl

@[simp] theorem policy_record (cache : Cache) (query : Query) (plan : Plan)
    (replies : List Reply) : (cache.record query plan replies).2.policy = cache.policy := by
  rcases record_cases cache query plan replies with
    ⟨-, record⟩ | ⟨-, -, record⟩ | ⟨standing, -, -, -, record⟩ | ⟨-, -, -, -, record⟩ |
      ⟨-, -, -, -, record⟩ <;> rw [record]
  all_goals first | rfl | exact policy_evict _

@[simp] theorem issued_record (cache : Cache) (query : Query) (plan : Plan)
    (replies : List Reply) : (cache.record query plan replies).2.issued = cache.issued := by
  rcases record_cases cache query plan replies with
    ⟨-, record⟩ | ⟨-, -, record⟩ | ⟨standing, -, -, -, record⟩ | ⟨-, -, -, -, record⟩ |
      ⟨-, -, -, -, record⟩ <;> rw [record]
  all_goals first | rfl | exact issued_evict _

end Cache

end DatabaseClient.Statement
