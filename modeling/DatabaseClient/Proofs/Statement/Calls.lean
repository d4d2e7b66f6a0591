import Mathlib.Data.List.Induction
import DatabaseClient.Proofs.Statement.Transitions

set_option autoImplicit false

namespace DatabaseClient.Statement

inductive Call where
  | plan (query : Query) (choice : Option Bool)
  | record (query : Query) (plan : Plan) (replies : List Reply)
  | reset
  | setThreshold (threshold : Option Nat)
  | setCapacity (capacity : Nat)
  -- The rest only reads.
  | standing (query : Query)
  | size
  | queries
  | names
deriving DecidableEq

inductive Answer where
  | plan (plan : Plan)
  | upkeep (command : Option Upkeep)
  | standing (standing : Option Standing)
  | size (count : Nat)
  | queries (oldestFirst : List Query)
  | names (newestFirst : List Bytes)
  | done
deriving DecidableEq

def Call.recorded? : Call → Option Query
  | .record query _ _ => some query
  | _ => none

namespace Cache

def queries (cache : Cache) : List Query := cache.oldestFirst.map Prod.fst

def serve (cache : Cache) : Call → Answer × Cache
  | .plan query choice =>
    let (plan, cache) := cache.plan query choice
    (.plan plan, cache)
  | .record query plan replies =>
    let (command, cache) := cache.record query plan replies
    (.upkeep command, cache)
  | .reset =>
    let (command, cache) := cache.reset
    (.upkeep command, cache)
  | .setThreshold threshold => (.done, cache.setThreshold threshold)
  | .setCapacity capacity => (.done, cache.setCapacity capacity)
  | .standing query => (.standing (cache.standing? query), cache)
  | .size => (.size cache.entries.length, cache)
  | .queries => (.queries cache.queries, cache)
  | .names => (.names cache.preparedNames, cache)

def after (cache : Cache) (calls : List Call) : Cache :=
  calls.foldl (fun cache call => (cache.serve call).2) cache

@[simp] theorem after_nil (cache : Cache) : cache.after [] = cache := rfl

@[simp] theorem after_append (cache : Cache) (calls : List Call) (call : Call) :
    cache.after (calls ++ [call]) = ((cache.after calls).serve call).2 := by
  simp [after]

theorem after_after (cache : Cache) (calls more : List Call) :
    (cache.after calls).after more = cache.after (calls ++ more) := by
  simp [after]

@[simp] theorem length_queries (cache : Cache) : cache.queries.length = cache.entries.length := by
  simp [queries, oldestFirst]

@[simp] theorem queries_touch (cache : Cache) (query : Query) (standing : Standing) :
    (cache.touch query standing).queries = cache.queries.filter (· ≠ query) ++ [query] := by
  simp only [queries, oldestFirst, touch, without, List.reverse_cons, List.map_append,
    List.map_cons, List.map_nil, List.map_reverse, List.filter_reverse, List.filter_map]
  rfl

@[simp] theorem queries_plan (cache : Cache) (query : Query) (choice : Option Bool) :
    (cache.plan query choice).2.queries = cache.queries := by
  simp [queries, oldestFirst]

theorem distinct_iff (cache : Cache) : cache.Distinct ↔ cache.queries.Nodup := by
  rw [Distinct, queries, oldestFirst, List.map_reverse, List.nodup_reverse]

theorem Distinct.serve {cache : Cache} (distinct : cache.Distinct) (call : Call) :
    (cache.serve call).2.Distinct := by
  cases call with
  | plan query choice => exact distinct.plan query choice
  | record query plan replies => exact distinct.record query plan replies
  | reset =>
    rcases cache.reset_cases with ⟨-, reset⟩ | ⟨-, reset⟩ <;> rw [Cache.serve, reset]
    next => exact distinct
    next => exact List.nodup_nil
  | setThreshold | setCapacity | standing | size | queries | names => exact distinct

theorem Distinct.after {cache : Cache} (distinct : cache.Distinct) (calls : List Call) :
    (cache.after calls).Distinct := by
  induction calls using List.reverseRecOn with
  | nil => exact distinct
  | append_singleton calls call ih =>
    rw [after_append]
    exact ih.serve call

theorem standing_eq_none_iff (cache : Cache) (query : Query) :
    cache.standing? query = none ↔ query ∉ cache.queries := by
  rw [standing?, List.lookup_eq_none_iff, queries, oldestFirst, List.map_reverse, List.mem_reverse,
    List.mem_map]
  constructor
  next =>
    rintro absent ⟨entry, member, rfl⟩
    simpa using absent entry member
  next =>
    intro absent entry member
    simpa using fun same => absent ⟨entry, member, Eq.symm same⟩

theorem queries_touch_new {cache : Cache} {query : Query} (new : query ∉ cache.queries)
    (standing : Standing) : (cache.touch query standing).queries = cache.queries ++ [query] := by
  rw [queries_touch, List.filter_eq_self.mpr]
  intro held member
  have different : held ≠ query := fun same => new (same ▸ member)
  simpa using different

theorem queries_evict_cases (cache : Cache) :
    (cache.queries.length ≤ cache.policy.capacity ∧ cache.evict.2.queries = cache.queries) ∨
    (cache.policy.capacity < cache.queries.length ∧
      cache.evict.2.queries = cache.queries.tail) := by
  rcases cache.evict_cases with
    ⟨within, evicted⟩ | ⟨rest, query, times, exceeded, entries, evicted⟩ |
      ⟨rest, query, name, exceeded, entries, evicted⟩ <;> rw [evicted]
  next => exact .inl ⟨by simpa using within, rfl⟩
  all_goals exact .inr ⟨by simpa using exceeded, by simp [queries, oldestFirst, entries]⟩

end Cache

end DatabaseClient.Statement
