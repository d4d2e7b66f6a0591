import Mathlib.Data.List.MinMax
import Mathlib.Order.Nat
import DatabaseClient.Proofs.Statement.Names
import DatabaseClient.Proofs.Statement.Recency

set_option autoImplicit false

namespace DatabaseClient.Statement

namespace Cache

theorem Distinct.length_touch {cache : Cache} (distinct : cache.Distinct) {query : Query}
    (tracked : query ∈ cache.queries) (standing : Standing) :
    (cache.touch query standing).queries.length = cache.queries.length := by
  have erased : cache.queries.filter (· ≠ query) = cache.queries.erase query := by
    rw [((distinct_iff cache).mp distinct).erase_eq_filter]
    exact List.filter_congr fun other _ => by simp [bne, beq_eq_decide]
  have positive : 0 < cache.queries.length := List.length_pos_of_mem tracked
  rw [queries_touch, erased, List.length_append, List.length_erase_of_mem tracked,
    List.length_singleton]
  omega

def Overfull (cache : Cache) : Prop := cache.policy.capacity < cache.queries.length

def LetsIn (cache : Cache) (query : Query) : Call → Prop
  | .record reported _ replies =>
    reported = query ∧ query ∉ cache.queries ∧ cache.policy.threshold ≠ none ∧ Routine replies
  | _ => False

def Gathers (cache : Cache) (calls : List Call) : Prop :=
  ∀ before call, before ++ [call] <+: calls → ∃ query, (cache.after before).LetsIn query call

theorem gathers_nil (cache : Cache) : cache.Gathers [] := by
  intro before call within
  simp at within

theorem Gathers.concat {cache : Cache} {calls : List Call} (gathers : cache.Gathers calls)
    {query : Query} {call : Call} (letsIn : (cache.after calls).LetsIn query call) :
    cache.Gathers (calls ++ [call]) := by
  intro before last within
  rcases List.prefix_concat_iff.mp within with same | earlier
  next =>
    obtain ⟨rfl, ⟨⟩⟩ := List.append_inj' same rfl
    exact ⟨query, letsIn⟩
  next => exact gathers before last earlier

theorem Gathers.before {cache : Cache} {calls : List Call} {call : Call}
    (gathers : cache.Gathers (calls ++ [call])) : cache.Gathers calls :=
  fun before last within => gathers before last (within.trans (List.prefix_append _ _))

namespace Overfull

variable {cache : Cache}

theorem takes_place (overfull : cache.Overfull) {query : Query} (new : query ∉ cache.queries)
    (standing : Standing) :
    (cache.touch query standing).evict.2.queries = (cache.queries ++ [query]).tail := by
  have order : (cache.touch query standing).queries = cache.queries ++ [query] :=
    queries_touch_new new standing
  rcases (cache.touch query standing).queries_evict_cases with ⟨within, -⟩ | ⟨-, evicted⟩
  next =>
    rw [order, List.length_append] at within
    exact absurd overfull (Nat.not_lt_of_le (Nat.le_of_add_right_le within))
  next => rw [evicted, order]

theorem record (overfull : cache.Overfull) (distinct : cache.Distinct) (query : Query)
    (plan : Plan) (replies : List Reply) :
    (cache.record query plan replies).2.queries = [] ∨
      (cache.record query plan replies).2.queries.length = cache.queries.length := by
  rcases cache.record_cases query plan replies with
    ⟨-, record⟩ | ⟨-, -, record⟩ | ⟨standing, -, -, known, record⟩ | ⟨-, -, -, -, record⟩ |
      ⟨-, -, absent, -, record⟩ <;> rw [record]
  next => exact .inr rfl
  next => exact .inl rfl
  next =>
    have tracked : query ∈ cache.queries := by
      by_contra absent
      simp [(cache.standing_eq_none_iff query).mpr absent] at known
    exact .inr (distinct.length_touch tracked _)
  next => exact .inr rfl
  next =>
    rw [overfull.takes_place ((cache.standing_eq_none_iff query).mp absent)]
    exact .inr (by simp)

theorem serve (overfull : cache.Overfull) (distinct : cache.Distinct) {call : Call}
    (fixed : ∀ capacity, call ≠ .setCapacity capacity) :
    (cache.serve call).2.queries = [] ∨
      ((cache.serve call).2.queries.length = cache.queries.length ∧
        (cache.serve call).2.policy.capacity = cache.policy.capacity) := by
  cases call with
  | plan query choice => exact .inr ⟨by simp [Cache.serve], by simp [Cache.serve]⟩
  | record query plan replies =>
    exact (overfull.record distinct query plan replies).imp_right
      fun same => ⟨same, by simp [Cache.serve]⟩
  | reset =>
    rcases cache.reset_cases with ⟨-, reset⟩ | ⟨-, reset⟩ <;> rw [Cache.serve, reset]
    next => exact .inr ⟨rfl, rfl⟩
    next => exact .inl rfl
  | setCapacity capacity => exact absurd rfl (fixed capacity)
  | setThreshold | standing | size | queries | names => exact .inr ⟨rfl, rfl⟩

theorem after (overfull : cache.Overfull) (distinct : cache.Distinct) {more : List Call}
    (fixed : ∀ capacity, Call.setCapacity capacity ∉ more) :
    (∃ before, before <+: more ∧ (cache.after before).queries = []) ∨
      ((cache.after more).queries.length = cache.queries.length ∧
        (cache.after more).policy.capacity = cache.policy.capacity) := by
  induction more using List.reverseRecOn with
  | nil => exact .inr ⟨rfl, rfl⟩
  | append_singleton more call ih =>
    rcases ih fun capacity member => fixed capacity (List.mem_append_left _ member) with
      ⟨before, within, emptied⟩ | ⟨length, capacity⟩
    next => exact .inl ⟨before, within.trans (List.prefix_append _ _), emptied⟩
    next =>
      have still : (cache.after more).Overfull := by rwa [Overfull, length, capacity]
      rw [after_append]
      have kept : ∀ capacity, call ≠ .setCapacity capacity := by
        rintro capacity rfl
        exact fixed capacity (by simp)
      rcases still.serve (distinct.after more) kept with emptied | ⟨same, kept⟩
      next => exact .inl ⟨more ++ [call], List.prefix_rfl, by rwa [after_append]⟩
      next => exact .inr ⟨same.trans length, kept.trans capacity⟩

theorem letsIn (overfull : cache.Overfull) {query : Query} {call : Call}
    (letsIn : cache.LetsIn query call) :
    (cache.serve call).2.queries = (cache.queries ++ [query]).tail ∧
      (cache.serve call).2.policy = cache.policy ∧ call.recorded? = some query := by
  cases call with
  | record reported plan replies =>
    obtain ⟨rfl, new, enabled, succeeded, harmless⟩ := letsIn
    have taken : cache.record reported plan replies =
        (cache.touch reported (initial plan)).evict := by
      rw [Cache.record, if_neg enabled, (cache.standing_eq_none_iff reported).mpr new]
      simp [discards, harmless, (admits_iff replies).mpr succeeded]
    refine ⟨?_, cache.policy_record reported plan replies, rfl⟩
    rw [Cache.serve, taken]
    exact overfull.takes_place new _
  | _ => exact letsIn.elim

theorem gathers (overfull : cache.Overfull) {more : List Call} (gathers : cache.Gathers more) :
    (cache.after more).queries = (cache.queries ++ more.filterMap Call.recorded?).drop more.length ∧
      (cache.after more).queries.length = cache.queries.length ∧
      (cache.after more).policy = cache.policy := by
  induction more using List.reverseRecOn with
  | nil => simp
  | append_singleton more call ih =>
    obtain ⟨order, length, policy⟩ := ih gathers.before
    obtain ⟨query, new⟩ := gathers more call List.prefix_rfl
    have still : (cache.after more).Overfull := by rwa [Overfull, length, policy]
    obtain ⟨moved, same, reported⟩ := still.letsIn new
    have enough : more.length ≤ (cache.queries ++ more.filterMap Call.recorded?).length := by
      have positive : 0 < cache.queries.length := Nat.zero_lt_of_lt overfull
      have counted := congrArg List.length order
      rw [length, List.length_drop] at counted
      omega
    rw [after_append, moved]
    refine ⟨?_, by simp [length], same.trans policy⟩
    rw [order, List.filterMap_append, ← List.append_assoc, List.filterMap_cons_some reported,
      List.filterMap_nil, List.length_append, List.length_singleton, ← List.tail_drop,
      List.drop_append_of_le_length enough]

end Overfull

/-- If the capacity is lowered below the number of queries, that number stays as it is until all of
them are lost at once. In particular, each query that is taken up pushes out the oldest one and no
other, so that taking up queries never brings the cache within its capacity. -/
theorem overfull_persists (policy : Policy) (calls : List Call) (capacity : Nat)
    (exceeded : capacity < ((empty policy).after calls).entries.length) :
    let shrunk := (empty policy).after (calls ++ [.setCapacity capacity])
    (∀ more, (∀ other, Call.setCapacity other ∉ more) →
      (∀ before, before <+: more → (shrunk.after before).entries ≠ []) →
      (shrunk.after more).entries.length = shrunk.entries.length) ∧
    (∀ more, shrunk.Gathers more →
      (shrunk.after more).queries =
        (shrunk.queries ++ more.filterMap Call.recorded?).drop more.length ∧
      (shrunk.after more).entries.length = shrunk.entries.length ∧
      (shrunk.after more).policy.capacity < (shrunk.after more).entries.length) := by
  intro shrunk
  have distinct : shrunk.Distinct := (distinct_empty policy).after _
  have overfull : shrunk.Overfull := by
    simpa [shrunk, Overfull, Cache.serve, setCapacity, queries, oldestFirst] using exceeded
  simp only [← length_queries]
  refine ⟨fun more fixed held => ?_, fun more gathers => ?_⟩
  next =>
    rcases overfull.after distinct fixed with ⟨before, within, emptied⟩ | ⟨same, -⟩
    next =>
      have none : (shrunk.after before).entries = [] := by
        rw [← List.length_eq_zero_iff, ← length_queries, emptied, List.length_nil]
      exact absurd none (held before within)
    next => exact same
  next =>
    obtain ⟨order, length, kept⟩ := overfull.gathers gathers
    refine ⟨order, length, ?_⟩
    rwa [kept, length]

theorem overfull_persists_pushing :
    let query (n : Nat) : Query := ⟨Bytes.decimal n, []⟩
    let report (n : Nat) : Call := .record (query n) .direct [⟨.rows, none⟩]
    let shrunk := (empty ⟨some 5, 10⟩).after ([report 0, report 1, report 2] ++ [.setCapacity 1])
    1 < ((empty ⟨some 5, 10⟩).after [report 0, report 1, report 2]).entries.length ∧
    (shrunk.after [report 3, report 4]).queries = [query 2, query 3, query 4] ∧
    (shrunk.after [report 1, .plan (query 7) none, report 0]).entries.length = 3 := by
  intro query report shrunk
  have exceeded :
      1 < ((empty ⟨some 5, 10⟩).after [report 0, report 1, report 2]).entries.length := by decide
  obtain ⟨fixed, gathering⟩ := overfull_persists ⟨some 5, 10⟩ _ 1 exceeded
  have routine : Routine [⟨.rows, none⟩] := ⟨⟨_, rfl, .inr rfl⟩, rfl⟩
  have first : shrunk.LetsIn (query 3) (report 3) := ⟨rfl, by decide, by decide, routine⟩
  have second : (shrunk.after [report 3]).LetsIn (query 4) (report 4) :=
    ⟨rfl, by decide, by decide, routine⟩
  obtain ⟨order, -, -⟩ := gathering _ (((gathers_nil shrunk).concat first).concat second)
  have held : ∀ before ∈ List.inits [report 1, .plan (query 7) none, report 0],
      (shrunk.after before).entries ≠ [] := by decide
  refine ⟨exceeded, order.trans (by decide), (fixed _ (by simp [report]) ?_).trans (by decide)⟩
  exact fun before within => held before ((List.mem_inits _ _).mpr within)

/-- Two queries and room for one. However many new queries are taken up, there are two. -/
theorem overfull_endless :
    let query (n : Nat) : Query := ⟨Bytes.decimal n, []⟩
    let report (n : Nat) : Call := .record (query n) .direct [⟨.rows, none⟩]
    let shrunk := (empty ⟨some 5, 10⟩).after [report 0, report 1, .setCapacity 1]
    ∀ n, let later := (List.range n).map fun i => report (i + 2)
      shrunk.Gathers later ∧ (shrunk.after later).policy.capacity = 1 ∧
        (shrunk.after later).entries.length = 2 := by
  intro query report shrunk n
  have two : shrunk.queries = [query 0, query 1] := by decide
  have overfull : shrunk.Overfull := by
    rw [Overfull, two]
    decide
  have apart {i j : Nat} (same : query i = query j) : i = j :=
    Bytes.decimal_injective (congrArg Query.text same)
  have gathers : shrunk.Gathers ((List.range n).map fun i => report (i + 2)) := by
    induction n with
    | zero => exact gathers_nil shrunk
    | succ n ih =>
      obtain ⟨order, -, policy⟩ := overfull.gathers ih
      set cache := shrunk.after ((List.range n).map fun i => report (i + 2))
      have new : query (n + 2) ∉ cache.queries := by
        intro member
        rw [order, two] at member
        have earlier := List.mem_of_mem_drop member
        simp only [List.mem_append, List.mem_cons, List.not_mem_nil, or_false,
          List.mem_filterMap, List.mem_map, List.mem_range] at earlier
        rcases earlier with (same | same) | ⟨_, ⟨i, within, rfl⟩, same⟩
        next => exact absurd (apart same) (by omega)
        next => exact absurd (apart same) (by omega)
        next => exact absurd (apart (Option.some.inj same)) (by omega)
      have enabled : cache.policy.threshold ≠ none := by
        rw [policy]
        decide
      have letsIn : cache.LetsIn (query (n + 2)) (report (n + 2)) :=
        ⟨rfl, new, enabled, ⟨_, rfl, .inr rfl⟩, rfl⟩
      rw [List.range_succ, List.map_append]
      exact ih.concat letsIn
  obtain ⟨-, length, policy⟩ := overfull.gathers gathers
  refine ⟨gathers, by rw [policy]; rfl, ?_⟩
  rw [← length_queries, length, two]
  rfl

def allowance? (cache : Cache) : Call → Option Nat
  | .record _ _ _ => some cache.policy.capacity
  | _ => none

def allowances (cache : Cache) : List Call → List Nat
  | [] => []
  | call :: rest => (cache.allowance? call).toList ++ (cache.serve call).2.allowances rest

theorem Distinct.length_record {cache : Cache} (distinct : cache.Distinct) (query : Query)
    (plan : Plan) (replies : List Reply) :
    (cache.record query plan replies).2.queries.length ≤ cache.queries.length + 1 ∧
      (cache.record query plan replies).2.queries.length ≤
        max cache.queries.length cache.policy.capacity := by
  rcases cache.record_cases query plan replies with
    ⟨-, record⟩ | ⟨-, -, record⟩ | ⟨standing, -, -, known, record⟩ | ⟨-, -, -, -, record⟩ |
      ⟨-, -, absent, -, record⟩ <;> rw [record]
  case inr.inl => simp [queries, oldestFirst]
  case inr.inr.inl =>
    have tracked : query ∈ cache.queries := by
      by_contra absent
      simp [(cache.standing_eq_none_iff query).mpr absent] at known
    rw [distinct.length_touch tracked]
    omega
  case inr.inr.inr.inr =>
    have longer : (cache.touch query (initial plan)).queries.length = cache.queries.length + 1 := by
      rw [queries_touch_new ((cache.standing_eq_none_iff query).mp absent), List.length_append,
        List.length_singleton]
    have same : (cache.touch query (initial plan)).policy = cache.policy := rfl
    rcases (cache.touch query (initial plan)).queries_evict_cases with
      ⟨within, kept⟩ | ⟨-, evicted⟩
    next =>
      rw [kept]
      rw [same] at within
      omega
    next =>
      rw [evicted, List.length_tail]
      omega
  all_goals exact ⟨Nat.le_succ _, Nat.le_max_left _ _⟩

theorem Distinct.length_serve {cache : Cache} (distinct : cache.Distinct) (call : Call)
    {bound : Nat} (short : cache.queries.length ≤ bound)
    (allowed : ∀ room ∈ cache.allowance? call, room ≤ bound) :
    (cache.serve call).2.queries.length ≤ bound := by
  cases call with
  | plan query choice => rwa [Cache.serve, queries_plan]
  | record query plan replies =>
    have within := (distinct.length_record query plan replies).2
    exact within.trans (max_le short (allowed _ rfl))
  | reset =>
    rcases cache.reset_cases with ⟨-, reset⟩ | ⟨-, reset⟩ <;> rw [Cache.serve, reset]
    next => exact short
    next => exact Nat.zero_le bound
  | setThreshold | setCapacity | standing | size | queries | names => exact short

theorem Distinct.length_after {cache : Cache} (distinct : cache.Distinct) {calls : List Call}
    {bound : Nat} (short : cache.queries.length ≤ bound)
    (allowed : ∀ room ∈ cache.allowances calls, room ≤ bound) :
    (cache.after calls).queries.length ≤ bound := by
  induction calls generalizing cache with
  | nil => exact short
  | cons call rest ih =>
    have first : ∀ room ∈ cache.allowance? call, room ≤ bound := fun room member =>
      allowed room (List.mem_append_left _ (Option.mem_toList.mpr member))
    exact ih (distinct.serve call) (distinct.length_serve call short first) fun room member =>
      allowed room (List.mem_append_right _ member)

theorem capacity_serve {cache : Cache} {call : Call}
    (fixed : ∀ capacity, call ≠ .setCapacity capacity) :
    (cache.serve call).2.policy.capacity = cache.policy.capacity := by
  cases call with
  | plan query choice => rw [serve, policy_plan]
  | record query plan replies => rw [serve, policy_record]
  | reset => rcases cache.reset_cases with ⟨-, reset⟩ | ⟨-, reset⟩ <;> rw [serve, reset]
  | setCapacity capacity => exact absurd rfl (fixed capacity)
  | setThreshold | standing | size | queries | names => rfl

theorem allowances_of_fixed {cache : Cache} {calls : List Call}
    (fixed : ∀ capacity, Call.setCapacity capacity ∉ calls) :
    ∀ room ∈ cache.allowances calls, room = cache.policy.capacity := by
  induction calls generalizing cache with
  | nil => simp [allowances]
  | cons call rest ih =>
    simp only [List.mem_cons, not_or] at fixed
    have kept : (cache.serve call).2.policy.capacity = cache.policy.capacity :=
      capacity_serve fun capacity same => (fixed capacity).1 same.symm
    intro room member
    rcases List.mem_append.mp member with first | later
    next =>
      cases call with
      | record query plan replies => simpa [allowance?] using first
      | _ => simp [allowance?] at first
    next => rw [ih (fun capacity => (fixed capacity).2) room later, kept]

/-- Since any moment at which the cache was empty, there has been a report at which there was room
for as many queries as are kept track of now. A report adds at most one, and none beyond the
capacity. The queries differ, and their number is the one that is told. Unless the capacity is
changed, there are never more. -/
theorem size_bounded (policy : Policy) (calls : List Call) :
    let cache := (empty policy).after calls
    (∀ before since, calls = before ++ since → ((empty policy).after before).entries = [] →
      cache.entries.length ≤ (((empty policy).after before).allowances since).foldr max 0) ∧
    (∀ query plan replies,
      let later := (cache.serve (.record query plan replies)).2
      later.entries.length ≤ cache.entries.length + 1 ∧
      later.entries.length ≤ max cache.entries.length cache.policy.capacity) ∧
    (∃ order, (cache.serve .queries).1 = .queries order ∧ order.Nodup ∧
      (cache.serve .size).1 = .size order.length) ∧
    ((∀ capacity, Call.setCapacity capacity ∉ calls) →
      cache.entries.length ≤ policy.capacity) := by
  intro cache
  have distinct : cache.Distinct := (distinct_empty policy).after calls
  simp only [← length_queries]
  refine ⟨?_, distinct.length_record, ⟨cache.queries, rfl, (distinct_iff cache).mp distinct, ?_⟩,
    ?_⟩
  next =>
    rintro before since rfl emptied
    have none : ((empty policy).after before).queries.length = 0 := by
      rw [length_queries, emptied, List.length_nil]
    have start : ((empty policy).after before).Distinct := (distinct_empty policy).after before
    have continued : cache = ((empty policy).after before).after since := (after_after ..).symm
    rw [continued]
    exact start.length_after (none.trans_le (Nat.zero_le _)) fun room member =>
      List.le_max_of_le member le_rfl
  next => rw [length_queries]; rfl
  next =>
    intro fixed
    exact (distinct_empty policy).length_after (Nat.zero_le _) fun room member =>
      (allowances_of_fixed fixed room member).le

theorem size_bounded_shrunk :
    let query (n : Nat) : Query := ⟨Bytes.decimal n, []⟩
    let report (n : Nat) : Call := .record (query n) .direct [⟨.rows, none⟩]
    let drop : Call := .record (query 0) .direct [⟨.command, some (Bytes.ofAscii "DROP TABLE t")⟩]
    let full : List Call := [report 0, report 1, report 2, report 3]
    let since : List Call := [.setCapacity 2, report 3, report 4, .setCapacity 1, report 5]
    let emptied := (empty ⟨some 5, 3⟩).after (full ++ [drop])
    ((empty ⟨some 5, 3⟩).after full).queries = [query 1, query 2, query 3] ∧
    ((empty ⟨some 5, 3⟩).after full).entries.length ≤ 3 ∧
    emptied.entries = [] ∧ emptied.allowances since = [2, 2, 1] ∧
    (emptied.after since).queries = [query 4, query 5] ∧
    (emptied.after since).entries.length ≤ 2 := by
  intro query report drop full since emptied
  have discarded : emptied.entries = [] := by decide
  have rooms : emptied.allowances since = [2, 2, 1] := by decide
  obtain ⟨-, -, -, unchanged⟩ := size_bounded ⟨some 5, 3⟩ full
  obtain ⟨bounded, -, -, -⟩ := size_bounded ⟨some 5, 3⟩ ((full ++ [drop]) ++ since)
  have largest := bounded (full ++ [drop]) since rfl discarded
  rw [rooms, ← after_after] at largest
  exact ⟨by decide, unchanged (by simp [full, report]), discarded, rooms, by decide, largest⟩

end Cache

end DatabaseClient.Statement
