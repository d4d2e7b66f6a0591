import DatabaseClient.Proofs.Statement.Actions
import DatabaseClient.Proofs.Statement.Names

set_option autoImplicit false

namespace DatabaseClient.Statement

def latest (executions : List Execution) (name : Bytes) : Option Execution :=
  (executions.filter (·.plan = .prepare name)).getLast?

theorem latest_append (executions : List Execution) (execution : Execution) (name : Bytes) :
    latest (executions ++ [execution]) name =
      if execution.plan = .prepare name then some execution else latest executions name := by
  by_cases named : execution.plan = .prepare name <;> simp [latest, List.filter_append, named]

theorem mem_of_latest {executions : List Execution} {execution : Execution} {name : Bytes}
    (h : latest executions name = some execution) :
    execution ∈ executions ∧ execution.plan = .prepare name := by
  simpa using List.mem_of_getLast? h

def Execution.Kept (execution : Execution) : Prop :=
  Succeeded execution.replies ∨
    (execution.standing ≠ none ∧ execution.replies.any Reply.invalidates = false)

namespace Cache

theorem mem_entries_of_evict {cache : Cache} {entry : Query × Standing}
    (member : entry ∈ cache.evict.2.entries) : entry ∈ cache.entries := by
  obtain ⟨dropped, entries⟩ := cache.evict_entries
  rw [entries]
  exact List.mem_append_left _ member

theorem discards_prepare (cache : Cache) (name : Bytes) (replies : List Reply) :
    cache.discards (.prepare name) replies = replies.any Reply.invalidates := by
  simp [discards, Plan.prepares]

theorem prepared_of_record {cache : Cache} {query other : Query} {plan : Plan}
    {replies : List Reply} {name : Bytes}
    (member : (other, .prepared name) ∈ (cache.record query plan replies).2.entries) :
    (other, .prepared name) ∈ cache.entries ∨
      (other = query ∧ plan = .prepare name ∧
        Execution.Kept ⟨query, cache.standing? query, plan, replies⟩) := by
  rcases cache.record_cases query plan replies with
    ⟨-, record⟩ | ⟨-, -, record⟩ | ⟨standing, -, undisturbed, known, record⟩ |
      ⟨-, -, -, -, record⟩ | ⟨-, -, -, admitted, record⟩ <;> rw [record] at member
  next => exact .inl member
  next => simp at member
  next =>
    rcases mem_touch.mp member with ⟨same, prepared⟩ | ⟨earlier, -⟩
    next =>
      rcases advance_eq_prepared prepared.symm with rfl | rfl
      next => exact .inl (same ▸ mem_entries_of_standing known)
      next =>
        rw [discards_prepare] at undisturbed
        exact .inr ⟨same, rfl, .inr ⟨by simp [known], undisturbed⟩⟩
    next => exact .inl earlier
  next => exact .inl member
  next =>
    rcases mem_touch.mp (mem_entries_of_evict member) with ⟨same, prepared⟩ | ⟨earlier, -⟩
    next =>
      exact .inr ⟨same, initial_eq_prepared prepared.symm,
        .inl ((admits_iff replies).mp admitted)⟩
    next => exact .inl earlier

/-- Every name in the cache was handed out, and the last preparation under it was for its query. -/
structure Traced (cache : Cache) (executions : List Execution) : Prop where
  issued : ∀ query name, (query, .prepared name) ∈ cache.entries →
    ∃ n < cache.issued, name = statementName n
  origin : ∀ query name, (query, .prepared name) ∈ cache.entries →
    ∃ execution, latest executions name = some execution ∧ execution.query = query ∧
      execution.Kept

theorem Traced.execute {cache : Cache} {executions : List Execution}
    (traced : cache.Traced executions) (query : Query) (choice : Option Bool)
    (replies : List Reply) :
    (cache.perform (.execute query choice replies)).2.Traced
      (executions ++ (cache.execution? (.execute query choice replies)).toList) := by
  have both (other : Query) (name : Bytes) (member : (other, .prepared name) ∈
      (cache.perform (.execute query choice replies)).2.entries) :
      (∃ n < (cache.perform (.execute query choice replies)).2.issued, name = statementName n) ∧
        ∃ execution, latest (executions ++
          [⟨query, cache.standing? query, (cache.plan query choice).1, replies⟩]) name =
          some execution ∧ execution.query = other ∧ execution.Kept := by
    rw [perform_execute] at member ⊢
    rw [issued_record, latest_append]
    have grown := cache.issued_le_plan query choice
    rcases prepared_of_record member with earlier | ⟨rfl, plan, kept⟩
    next =>
      rw [entries_plan] at earlier
      obtain ⟨n, below, same⟩ := traced.issued other name earlier
      -- The names in the cache are older than the one that may just have been handed out.
      have fresh : (cache.plan query choice).1 ≠ .prepare name := by
        intro plan
        have := statementName_injective (same.symm.trans (plan_prepare plan).2.2.1)
        omega
      rw [if_neg fresh]
      exact ⟨⟨n, by omega, same⟩, traced.origin other name earlier⟩
    next =>
      obtain ⟨-, -, named, next⟩ := plan_prepare plan
      rw [standing_plan] at kept
      rw [if_pos plan]
      exact ⟨⟨cache.issued, by omega, named⟩, _, rfl, rfl, kept⟩
  exact ⟨fun other name member => (both other name member).1,
    fun other name member => (both other name member).2⟩

theorem Traced.perform {cache : Cache} {executions : List Execution}
    (traced : cache.Traced executions) (action : Action) :
    (cache.perform action).2.Traced (executions ++ (cache.execution? action).toList) := by
  cases action with
  | execute query choice replies => exact traced.execute query choice replies
  | reset =>
    rw [execution?, Option.toList_none, List.append_nil]
    rcases cache.reset_cases with ⟨-, reset⟩ | ⟨-, reset⟩ <;> rw [Cache.perform, reset]
    next => exact traced
    next => exact ⟨by simp, by simp⟩
  | setThreshold threshold =>
    rw [execution?, Option.toList_none, List.append_nil]
    exact ⟨traced.issued, traced.origin⟩
  | setCapacity capacity =>
    rw [execution?, Option.toList_none, List.append_nil]
    exact ⟨traced.issued, traced.origin⟩

theorem Traced.run (policy : Policy) (actions : List Action) :
    ((empty policy).run actions).Traced ((empty policy).executions actions) := by
  induction actions using List.reverseRecOn with
  | nil => exact ⟨by simp [empty], by simp [empty]⟩
  | append_singleton actions action ih =>
    rw [run_append, executions_append]
    exact ih.perform action

theorem standing_record_iff {cache : Cache} {query : Query} {name : Bytes} {replies : List Reply}
    (unprepared : cache.Unprepared query) (failed : ¬ Succeeded replies) :
    (cache.record query (.prepare name) replies).2.standing? query = some (.prepared name) ↔
      cache.policy.threshold ≠ none ∧ cache.standing? query ≠ none ∧
        replies.any Reply.invalidates = false := by
  rcases cache.record_cases query (.prepare name) replies with
    ⟨off, record⟩ | ⟨-, discarded, record⟩ | ⟨standing, on, undisturbed, known, record⟩ |
      ⟨-, -, absent, -, record⟩ | ⟨-, -, -, admitted, -⟩
  next => simp [record, off, unprepared name]
  next =>
    rw [discards_prepare] at discarded
    simp [record, discarded, standing?]
  next =>
    -- The standing of a counted query advances without a look at the replies.
    rw [discards_prepare] at undisturbed
    have promoted : advance (.prepare name) standing = .prepared name :=
      advance_prepare fun other same => unprepared other (same ▸ known)
    simp [record, promoted, on, known, undisturbed]
  next => simp [record, absent]
  next => exact absurd ((admits_iff replies).mp admitted) failed

theorem reuse_of_failed {cache : Cache} {query : Query} {choice : Option Bool} {name : Bytes}
    {replies : List Reply} (plan : (cache.plan query choice).1 = .prepare name)
    (tracked : cache.standing? query ≠ none) (failed : ¬ Succeeded replies)
    (undisturbed : replies.any Reply.invalidates = false) :
    ((cache.perform (.execute query choice replies)).2.plan query none).1 = .reuse name := by
  obtain ⟨enabled, unprepared, -, -⟩ := plan_prepare plan
  have stored : (cache.perform (.execute query choice replies)).2.standing? query =
      some (.prepared name) := by
    rw [perform_execute, plan]
    refine (standing_record_iff ?_ failed).mpr ⟨?_, ?_, undisturbed⟩
    next => simpa [Unprepared] using unprepared
    next => simpa using enabled
    next => simpa using tracked
  have on : (cache.perform (.execute query choice replies)).2.policy.threshold ≠ none := by
    simpa [perform_execute] using enabled
  exact plan_of_prepared on stored

/-- A name is used again only after a success, at every point of a run, exactly if no counted query
is prepared in vain. -/
theorem reuse_succeeded_iff (policy : Policy) (actions : List Action) :
    ((∀ before, before <+: actions → ∀ query choice name,
        (((empty policy).run before).plan query choice).1 = .reuse name →
        ∃ execution, latest ((empty policy).executions before) name = some execution ∧
          Succeeded execution.replies) ↔
      ∀ execution ∈ (empty policy).executions actions, execution.plan.prepares = true →
        execution.standing ≠ none → execution.replies.any Reply.invalidates = false →
        Succeeded execution.replies) ∧
    ∀ (cache : Cache) (query : Query) (name : Bytes) (replies : List Reply),
      cache.Unprepared query → ¬ Succeeded replies →
      ((cache.record query (.prepare name) replies).2.standing? query = some (.prepared name) ↔
        cache.policy.threshold ≠ none ∧ cache.standing? query ≠ none ∧
          replies.any Reply.invalidates = false) := by
  refine ⟨⟨?_, ?_⟩, fun cache query name replies => standing_record_iff⟩
  next =>
    intro always execution member prepares tracked undisturbed
    obtain ⟨before, action, within, same⟩ := exists_of_mem_executions member
    cases action with
    | reset | setThreshold | setCapacity => simp [execution?] at same
    | execute query choice replies =>
      obtain rfl := Option.some.inj same
      by_contra failed
      cases plan : (((empty policy).run before).plan query choice).1 with
      | direct | reuse => simp [plan, Plan.prepares] at prepares
      | prepare name =>
        -- The name is stored in spite of the failure, so that it is used next.
        have reused : (((empty policy).run (before ++ [.execute query choice replies])).plan
            query none).1 = .reuse name := by
          rw [run_append]
          exact reuse_of_failed plan tracked failed undisturbed
        obtain ⟨execution, last, succeeded⟩ := always _ within query none name reused
        rw [executions_append, execution?, Option.toList_some, latest_append, if_pos plan] at last
        obtain rfl := Option.some.inj last
        exact failed succeeded
  next =>
    intro always before within query choice name plan
    have known := (plan_reuse plan).2
    obtain ⟨execution, last, -, kept⟩ :=
      (Traced.run policy before).origin query name (mem_entries_of_standing known)
    refine ⟨execution, last, ?_⟩
    rcases kept with succeeded | ⟨tracked, undisturbed⟩
    next => exact succeeded
    next =>
      obtain ⟨member, prepared⟩ := mem_of_latest last
      exact always execution ((executions_mono _ within).subset member)
        (by rw [prepared]; rfl) tracked undisturbed

/-- A counted query is prepared, the server answers with an error, and the name is used next. -/
theorem reuse_after_failure :
    ¬ ∀ (policy : Policy) (actions : List Action) (query : Query) (choice : Option Bool)
      (name : Bytes), (((empty policy).run actions).plan query choice).1 = .reuse name →
      ∃ execution, latest ((empty policy).executions actions) name = some execution ∧
        Succeeded execution.replies := by
  intro always
  let query : Query := ⟨[], []⟩
  let actions : List Action :=
    [.execute query none [⟨.rows, none⟩], .execute query none [⟨.other, none⟩]]
  have reused : (((empty ⟨some 1, 100⟩).run actions).plan query none).1 =
      .reuse (statementName 0) := by decide
  have failing : latest ((empty ⟨some 1, 100⟩).executions actions) (statementName 0) =
      some ⟨query, some (.counted 1), .prepare (statementName 0), [⟨.other, none⟩]⟩ := by decide
  obtain ⟨execution, last, reply, single, succeeded⟩ := always _ actions query none _ reused
  obtain rfl := Option.some.inj (failing.symm.trans last)
  obtain rfl := List.singleton_inj.mp single
  simp at succeeded

end Cache

end DatabaseClient.Statement
