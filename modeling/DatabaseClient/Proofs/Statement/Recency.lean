import Mathlib.Data.List.Dedup
import Mathlib.Data.List.DropRight
import DatabaseClient.Proofs.Statement.Actions
import DatabaseClient.Proofs.Statement.Calls

set_option autoImplicit false

namespace DatabaseClient.Statement

section Suffixes

variable {A : Type}

theorem rtake_of_length_le {items : List A} {n : Nat} (short : items.length ≤ n) :
    items.rtake n = items := by
  rw [List.rtake, Nat.sub_eq_zero_of_le short, List.drop_zero]

theorem length_rtake_le (items : List A) (n : Nat) : (items.rtake n).length ≤ n := by
  rw [List.rtake, List.length_drop]
  omega

variable [DecidableEq A]

theorem dedup_concat (items : List A) (item : A) :
    (items ++ [item]).dedup = items.dedup.filter (· ≠ item) ++ [item] := by
  induction items with
  | nil => simp
  | cons first rest ih =>
    by_cases later : first ∈ rest
    next => simp [later, ih]
    next =>
      rw [List.dedup_cons_of_notMem later]
      by_cases same : first = item
      next => simp [same, ih]
      next => simp [later, same, ih]

theorem rtake_filter_rtake {items : List A} (distinct : items.Nodup) (item : A) (n : Nat) :
    ((items.rtake (n + 1)).filter (· ≠ item)).rtake n = (items.filter (· ≠ item)).rtake n := by
  induction items using List.reverseRecOn generalizing n with
  | nil => simp
  | append_singleton items last ih =>
    obtain ⟨distinct, -, apart⟩ := List.nodup_append.mp distinct
    rw [List.rtake_concat_succ, List.filter_append, List.filter_append]
    by_cases same : last = item
    next =>
      have others : items.filter (· ≠ item) = items := by
        refine List.filter_eq_self.mpr fun other member => ?_
        simpa [same] using apart other member last
      have kept : (items.rtake n).filter (· ≠ item) = items.rtake n := by
        refine List.filter_eq_self.mpr fun other member => ?_
        exact List.filter_eq_self.mp others other (List.mem_of_mem_drop member)
      rw [others, kept]
      simp [same, rtake_of_length_le (length_rtake_le items n)]
    next =>
      have kept : [last].filter (· ≠ item) = [last] := by simp [same]
      rw [kept]
      cases n with
      | zero => simp
      | succ n => rw [List.rtake_concat_succ, List.rtake_concat_succ, ih distinct]

theorem head_of_pushed_out {items : List A} {n : Nat} {item other : A} (short : items.length ≤ n)
    (present : other = item ∨ other ∈ items)
    (gone : other ∉ (items.filter (· ≠ item) ++ [item]).rtake n) :
    if n = 0 then other = item else items.head? = some other := by
  cases n with
  | zero =>
    obtain rfl : items = [] := List.length_eq_zero_iff.mp (Nat.le_zero.mp short)
    simpa using present
  | succ n =>
    rw [List.rtake_concat_succ, List.mem_append, List.mem_singleton, not_or] at gone
    obtain ⟨gone, apart⟩ := gone
    have member : other ∈ items := present.resolve_left apart
    have kept : items.filter (· ≠ item) = items := by
      -- If something had been taken out, all the rest would fit.
      by_contra fewer
      refine gone ?_
      have less : (items.filter (· ≠ item)).length < items.length :=
        Nat.lt_of_le_of_ne (List.length_filter_le _ _) fun same =>
          fewer (List.filter_sublist.eq_of_length same)
      rw [rtake_of_length_le (by omega)]
      simp [member, apart]
    rw [kept] at gone
    cases items with
    | nil => simp at member
    | cons first rest =>
      rw [List.length_cons] at short
      rcases List.mem_cons.mp member with rfl | later
      next => simp
      next =>
        have suffix : other ∈ (first :: rest).rtake n := by
          rw [List.rtake, List.length_cons]
          have dropped : rest.length + 1 - n ≤ 1 := by omega
          rcases Nat.le_one_iff_eq_zero_or_eq_one.mp dropped with none | one
          next => simp [none, later]
          next => simp [one, later]
        exact absurd suffix gone

end Suffixes

/-- The last `capacity` distinct queries of a history, each where it occurs last. -/
def recent (capacity : Nat) (history : List Query) : List Query :=
  history.dedup.rtake capacity

theorem recent_concat (capacity : Nat) (history : List Query) (query : Query) :
    recent capacity (history ++ [query]) =
      ((recent capacity history).filter (· ≠ query) ++ [query]).rtake capacity := by
  rw [recent, dedup_concat, recent]
  cases capacity with
  | zero => simp
  | succ capacity =>
    rw [List.rtake_concat_succ, List.rtake_concat_succ,
      rtake_filter_rtake (List.nodup_dedup history)]

theorem nodup_recent (capacity : Nat) (history : List Query) : (recent capacity history).Nodup :=
  List.Nodup.sublist (List.drop_sublist _ _) (List.nodup_dedup history)

def Routine (replies : List Reply) : Prop :=
  Succeeded replies ∧ replies.any Reply.invalidates = false

def Call.Routine : Call → Prop
  | .record _ _ replies => Statement.Routine replies
  | .reset | .setThreshold _ | .setCapacity _ => False
  | .plan _ _ | .standing _ | .size | .queries | .names => True

namespace Cache

theorem queries_evict {cache : Cache} (nearly : cache.entries.length ≤ cache.policy.capacity + 1) :
    cache.evict.2.queries = cache.queries.rtake cache.policy.capacity := by
  rcases cache.queries_evict_cases with ⟨within, kept⟩ | ⟨exceeded, evicted⟩
  next => rw [kept, rtake_of_length_le within]
  next =>
    have one : cache.queries.length - cache.policy.capacity = 1 := by
      rw [length_queries] at exceeded ⊢
      omega
    rw [evicted, List.rtake, one, List.drop_one]

theorem queries_record {cache : Cache} (enabled : cache.policy.threshold ≠ none)
    (within : cache.entries.length ≤ cache.policy.capacity) (query : Query) (plan : Plan)
    {replies : List Reply} (routine : Routine replies) :
    (cache.record query plan replies).2.queries =
      (cache.queries.filter (· ≠ query) ++ [query]).rtake cache.policy.capacity := by
  obtain ⟨succeeded, harmless⟩ := routine
  have undisturbed : cache.discards plan replies = false := by simp [discards, harmless]
  rcases cache.record_cases query plan replies with
    ⟨off, -⟩ | ⟨-, discarded, -⟩ | ⟨standing, -, -, known, record⟩ | ⟨-, -, -, refused, -⟩ |
      ⟨-, -, absent, -, record⟩
  next => exact absurd off enabled
  next => simp [undisturbed] at discarded
  next =>
    -- The query only moves.
    have tracked : query ∈ cache.queries := by
      by_contra absent
      simp [(cache.standing_eq_none_iff query).mpr absent] at known
    have shorter : (cache.queries.filter (· ≠ query)).length < cache.queries.length :=
      List.length_filter_lt_length_iff_exists.mpr ⟨query, tracked, by simp⟩
    rw [record, queries_touch, rtake_of_length_le]
    rw [List.length_append, List.length_singleton]
    rw [length_queries] at shorter
    omega
  next => simp [(admits_iff replies).mpr succeeded] at refused
  next =>
    have nearly :
        (cache.touch query (initial plan)).entries.length ≤ cache.policy.capacity + 1 := by
      rw [← length_queries, queries_touch, List.length_append, List.length_singleton]
      have := List.length_filter_le (· ≠ query) cache.queries
      rw [length_queries] at this
      omega
    rw [record, queries_evict nearly, queries_touch]
    rfl

theorem preparedNames_eq {cache : Cache} (distinct : cache.Distinct) :
    cache.preparedNames =
      cache.queries.reverse.filterMap fun query => (cache.standing? query).bind Standing.name? := by
  rw [preparedNames, queries, oldestFirst, List.map_reverse, List.reverse_reverse,
    List.filterMap_map]
  refine List.filterMap_congr fun entry member => ?_
  rw [Function.comp_apply, distinct.standing member]
  rfl

theorem serve_routine {cache : Cache} (enabled : cache.policy.threshold ≠ none)
    (within : cache.entries.length ≤ cache.policy.capacity) {call : Call} (routine : call.Routine) :
    (cache.serve call).2.policy = cache.policy ∧
      (cache.serve call).2.queries = match call.recorded? with
        | some query => (cache.queries.filter (· ≠ query) ++ [query]).rtake cache.policy.capacity
        | none => cache.queries := by
  cases call with
  | plan query choice => exact ⟨cache.policy_plan query choice, cache.queries_plan query choice⟩
  | record query plan replies =>
    exact ⟨cache.policy_record query plan replies, queries_record enabled within query plan routine⟩
  | reset | setThreshold | setCapacity => exact routine.elim
  | standing | size | queries | names => exact ⟨rfl, rfl⟩

theorem after_routine (threshold capacity : Nat) {calls : List Call}
    (routine : ∀ call ∈ calls, call.Routine) :
    ((empty ⟨some threshold, capacity⟩).after calls).policy = ⟨some threshold, capacity⟩ ∧
      ((empty ⟨some threshold, capacity⟩).after calls).queries =
        recent capacity (calls.filterMap Call.recorded?) := by
  induction calls using List.reverseRecOn with
  | nil => simp [empty, queries, oldestFirst, recent]
  | append_singleton calls call ih =>
    obtain ⟨policy, queries⟩ := ih fun call member => routine call (List.mem_append_left _ member)
    have within : ((empty ⟨some threshold, capacity⟩).after calls).entries.length ≤ capacity := by
      rw [← length_queries, queries]
      exact length_rtake_le _ _
    have enabled :
        ((empty ⟨some threshold, capacity⟩).after calls).policy.threshold ≠ none := by
      simp [policy]
    obtain ⟨same, moved⟩ := serve_routine enabled (by rwa [policy]) (routine call (by simp))
    rw [after_append]
    refine ⟨same.trans policy, ?_⟩
    rw [moved, queries, policy, List.filterMap_append]
    cases recorded : call.recorded? with
    | none => simp [recorded]
    | some query =>
      rw [List.filterMap_cons_some recorded, List.filterMap_nil]
      exact (recent_concat capacity _ query).symm

/-- After routine executions, the calls that read the order see the queries that were reported last,
in the order of their last reports, and the names of those that are prepared, in reverse. One more
report pushes out the first in that order, or its own query if there is room for none. -/
theorem order_of_use (threshold capacity : Nat) (calls : List Call)
    (routine : ∀ call ∈ calls, call.Routine) (query : Query) (plan : Plan) (replies : List Reply)
    (last : Routine replies) :
    let cache := (empty ⟨some threshold, capacity⟩).after calls
    let order := recent capacity (calls.filterMap Call.recorded?)
    (cache.serve .queries).1 = .queries order ∧ order.Nodup ∧
    (cache.serve .names).1 = .names
      (order.reverse.filterMap fun query => (cache.standing? query).bind Standing.name?) ∧
    ∀ other, other = query ∨ other ∈ order →
      other ∉ (cache.serve (.record query plan replies)).2.queries →
      if capacity = 0 then other = query else order.head? = some other := by
  intro cache order
  obtain ⟨policy, queries⟩ := after_routine threshold capacity routine
  have distinct : cache.Distinct := by
    rw [distinct_iff, queries]
    exact nodup_recent _ _
  have short : order.length ≤ capacity := length_rtake_le _ _
  refine ⟨congrArg Answer.queries queries, nodup_recent _ _, ?_, ?_⟩
  next => exact congrArg Answer.names ((preparedNames_eq distinct).trans (by rw [queries]))
  next =>
    intro other present gone
    have within : cache.entries.length ≤ cache.policy.capacity := by
      rwa [← length_queries, queries, policy]
    have enabled : cache.policy.threshold ≠ none := by simp [cache, policy]
    have moved : (cache.serve (.record query plan replies)).2.queries =
        (order.filter (· ≠ query) ++ [query]).rtake capacity := by
      refine (queries_record enabled within query plan last).trans ?_
      rw [queries, policy]
    exact head_of_pushed_out short present (moved ▸ gone)

theorem order_of_use_return :
    let first : Query := ⟨Bytes.ofAscii "a", []⟩
    let second : Query := ⟨Bytes.ofAscii "b", []⟩
    let third : Query := ⟨Bytes.ofAscii "c", []⟩
    let done : List Reply := [⟨.rows, none⟩]
    let calls : List Call := [.record first .direct done, .record second (.prepare [1]) done,
      .names, .record third .direct done, .plan second none, .record first (.prepare [2]) done]
    (∀ call ∈ calls, call.Routine) ∧ Routine done ∧
    (((empty ⟨some 3, 2⟩).after calls).serve .queries).1 = .queries [third, first] ∧
    ∀ other, other = second ∨ other ∈ [third, first] →
      other ∉ (((empty ⟨some 3, 2⟩).after calls).serve (.record second .direct done)).2.queries →
      [third, first].head? = some other := by
  intro first second third done calls
  have last : Routine done := ⟨⟨_, rfl, .inr rfl⟩, rfl⟩
  have routine : ∀ call ∈ calls, call.Routine := by simp [calls, Call.Routine, last]
  have order : recent 2 (calls.filterMap Call.recorded?) = [third, first] := by decide
  obtain ⟨queries, -, -, evicted⟩ := order_of_use 3 2 calls routine second .direct done last
  rw [order] at queries evicted
  exact ⟨routine, last, queries, evicted⟩

end Cache

end DatabaseClient.Statement
