import Mathlib.Data.List.Infix
import DatabaseClient.Proofs.Statement.Calls

set_option autoImplicit false

namespace DatabaseClient.Statement

/-- What is known of a query after reports with these plans: the first name that was given to it,
or how many reports there were. -/
def earned (plans : List Plan) : Standing :=
  match plans.findSome? Plan.newName? with
  | some name => .prepared name
  | none => .counted (min plans.length countLimit)

theorem earned_singleton (plan : Plan) : earned [plan] = Cache.initial plan := by
  cases plan <;> rfl

theorem earned_concat (plans : List Plan) (plan : Plan) :
    earned (plans ++ [plan]) = Cache.advance plan (earned plans) := by
  cases named : plans.findSome? Plan.newName? with
  | some name => simp [earned, List.findSome?_append, named, Cache.advance]
  | none =>
    have counts : min (plans.length + 1) countLimit =
        min (min plans.length countLimit + 1) countLimit := by omega
    cases plan <;>
      simp [earned, List.findSome?_append, named, Plan.newName?, Cache.advance, counts]

def Standing.Develops : Standing → Standing → Prop
  | .counted times, .counted later => times ≤ later
  | .counted _, .prepared _ => True
  | .prepared name, later => later = .prepared name

theorem earned_develops (plans more : List Plan) :
    (earned plans).Develops (earned (plans ++ more)) := by
  unfold earned
  rw [List.findSome?_append]
  cases plans.findSome? Plan.newName? with
  | some name => rfl
  | none =>
    cases more.findSome? Plan.newName? with
    | some name => trivial
    | none =>
      have longer : plans.length ≤ (plans ++ more).length := by simp
      change min plans.length countLimit ≤ min (plans ++ more).length countLimit
      omega

namespace Cache

theorem standing_touch_other (cache : Cache) {query other : Query} (different : other ≠ query)
    (standing : Standing) :
    (cache.touch query standing).standing? other = cache.standing? other := by
  have apart : (other == query) = false := by simp [different]
  simp only [standing?, touch, without, List.lookup_cons, apart]
  induction cache.entries with
  | nil => rfl
  | cons entry rest ih =>
    by_cases same : entry.1 = query
    next =>
      rw [List.filter_cons_of_neg (by simp [same]), ih, List.lookup_cons, same, apart]
    next =>
      rw [List.filter_cons_of_pos (by simp [same]), List.lookup_cons, List.lookup_cons, ih]

theorem standing_of_evict {cache : Cache} {query : Query} {standing : Standing}
    (held : cache.evict.2.standing? query = some standing) :
    cache.standing? query = some standing := by
  obtain ⟨dropped, entries⟩ := cache.evict_entries
  rw [standing?] at held
  simp [standing?, entries, List.lookup_append, held]

def report? (cache : Cache) (query : Query) : Call → Option Plan
  | .record other plan _ =>
    if other = query ∧ cache.policy.threshold ≠ none then some plan else none
  | _ => none

def reports (cache : Cache) (query : Query) : List Call → List Plan
  | [] => []
  | call :: rest => (cache.report? query call).toList ++ (cache.serve call).2.reports query rest

theorem reports_append (cache : Cache) (query : Query) (calls : List Call) (call : Call) :
    cache.reports query (calls ++ [call]) =
      cache.reports query calls ++ ((cache.after calls).report? query call).toList := by
  induction calls generalizing cache with
  | nil => simp [reports]
  | cons first rest ih => simp [reports, after, ih]

theorem report_of_other {cache : Cache} {query : Query} {call : Call}
    (other : call.recorded? ≠ some query) : cache.report? query call = none := by
  cases call with
  | record recorded plan replies =>
    have different : recorded ≠ query := by simpa [Call.recorded?] using other
    simp [report?, different]
  | _ => rfl

theorem reports_of_others {cache : Cache} {query : Query} {calls : List Call}
    (others : ∀ call ∈ calls, call.recorded? ≠ some query) : cache.reports query calls = [] := by
  induction calls generalizing cache with
  | nil => rfl
  | cons call rest ih =>
    rw [reports, report_of_other (others call (by simp)), Option.toList_none, List.nil_append]
    exact ih fun call member => others call (List.mem_cons_of_mem _ member)

theorem standing_record {cache : Cache} {query recorded : Query} {plan : Plan}
    {replies : List Reply} {standing : Standing}
    (held : (cache.record recorded plan replies).2.standing? query = some standing) :
    ((recorded = query → cache.policy.threshold = none) ∧ cache.standing? query = some standing) ∨
    (recorded = query ∧ cache.policy.threshold ≠ none ∧
      standing = (cache.standing? query).elim (initial plan) (advance plan)) := by
  rcases cache.record_cases recorded plan replies with
    ⟨off, record⟩ | ⟨-, -, record⟩ | ⟨earlier, on, -, known, record⟩ | ⟨-, -, absent, -, record⟩ |
      ⟨on, -, absent, -, record⟩ <;> rw [record] at held
  next => exact .inl ⟨fun _ => off, held⟩
  next => simp [standing?] at held
  next =>
    by_cases same : recorded = query
    next =>
      subst same
      rw [standing_touch] at held
      exact .inr ⟨rfl, on, by simp [known, Option.some.inj held]⟩
    next =>
      rw [standing_touch_other cache (Ne.symm same)] at held
      exact .inl ⟨fun other => absurd other same, held⟩
  next =>
    refine .inl ⟨?_, held⟩
    rintro rfl
    simp [absent] at held
  next =>
    replace held := standing_of_evict held
    by_cases same : recorded = query
    next =>
      subst same
      rw [standing_touch] at held
      exact .inr ⟨rfl, on, by simp [absent, Option.some.inj held]⟩
    next =>
      rw [standing_touch_other cache (Ne.symm same)] at held
      exact .inl ⟨fun other => absurd other same, held⟩

theorem standing_serve {cache : Cache} {query : Query} {call : Call} {standing : Standing}
    (held : (cache.serve call).2.standing? query = some standing) :
    (cache.report? query call = none ∧ cache.standing? query = some standing) ∨
    ∃ plan, cache.report? query call = some plan ∧
      standing = (cache.standing? query).elim (initial plan) (advance plan) := by
  cases call with
  | plan planned choice =>
    exact .inl ⟨rfl, (cache.standing_plan planned query choice).symm.trans held⟩
  | record recorded plan replies =>
    rcases standing_record held with ⟨ignored, same⟩ | ⟨rfl, on, advanced⟩
    next =>
      refine .inl ⟨if_neg ?_, same⟩
      exact fun reported => reported.2 (ignored reported.1)
    next => exact .inr ⟨plan, if_pos ⟨rfl, on⟩, advanced⟩
  | reset =>
    rcases cache.reset_cases with ⟨-, reset⟩ | ⟨-, reset⟩
    next =>
      refine .inl ⟨rfl, ?_⟩
      simpa [serve, reset] using held
    next => simp [serve, reset, standing?] at held
  | setThreshold | setCapacity | standing | size | queries | names => exact .inl ⟨rfl, held⟩

def TakesUp (cache : Cache) (call : Call) (query : Query) : Prop :=
  cache.standing? query = none ∧ (cache.serve call).2.standing? query ≠ none

def Keeps (cache : Cache) (query : Query) (calls : List Call) : Prop :=
  ∀ further, further <+: calls → (cache.after further).standing? query ≠ none

theorem Keeps.before {cache : Cache} {query : Query} {calls : List Call} {call : Call}
    (keeps : cache.Keeps query (calls ++ [call])) : cache.Keeps query calls :=
  fun further within => keeps further (within.trans (List.prefix_append _ _))

theorem Keeps.concat {cache : Cache} {query : Query} {calls : List Call} {call : Call}
    (keeps : cache.Keeps query calls)
    (tracked : (cache.after (calls ++ [call])).standing? query ≠ none) :
    cache.Keeps query (calls ++ [call]) := by
  intro further within
  rcases List.prefix_concat_iff.mp within with rfl | earlier
  next => exact tracked
  next => exact keeps further earlier

theorem standing_kept {cache : Cache} {query : Query} {plans : List Plan}
    (earns : cache.standing? query = some (earned plans)) {calls : List Call}
    (keeps : cache.Keeps query calls) :
    (cache.after calls).standing? query = some (earned (plans ++ cache.reports query calls)) := by
  induction calls using List.reverseRecOn with
  | nil => simpa [reports] using earns
  | append_singleton calls call ih =>
    have known := ih keeps.before
    obtain ⟨standing, held⟩ := Option.ne_none_iff_exists'.mp (keeps _ List.prefix_rfl)
    rw [after_append] at held ⊢
    rw [held, reports_append]
    rcases standing_serve held with ⟨silent, same⟩ | ⟨plan, reported, advanced⟩
    next =>
      rw [silent, Option.toList_none, List.append_nil, ← same]
      exact known
    next =>
      rw [reported, Option.toList_some, ← List.append_assoc, earned_concat, advanced, known]
      rfl

theorem TakesUp.standing {cache : Cache} {call : Call} {query : Query}
    (takesUp : cache.TakesUp call query) :
    ∃ plan, cache.report? query call = some plan ∧
      (cache.serve call).2.standing? query = some (earned [plan]) := by
  obtain ⟨absent, present⟩ := takesUp
  obtain ⟨standing, held⟩ := Option.ne_none_iff_exists'.mp present
  rcases standing_serve held with ⟨-, same⟩ | ⟨plan, reported, begun⟩
  next => simp [absent] at same
  next =>
    rw [absent, Option.elim_none, ← earned_singleton] at begun
    exact ⟨plan, reported, begun ▸ held⟩

theorem exists_takesUp {cache : Cache} {query : Query} (absent : cache.standing? query = none)
    (calls : List Call)
    (tracked : (cache.after calls).standing? query ≠ none) :
    ∃ before call later, calls = before ++ call :: later ∧
      (cache.after before).TakesUp call query ∧
      ((cache.after before).serve call).2.Keeps query later := by
  induction calls using List.reverseRecOn with
  | nil => exact absurd absent tracked
  | append_singleton calls call ih =>
    by_cases earlier : (cache.after calls).standing? query = none
    next =>
      rw [after_append] at tracked
      refine ⟨calls, call, [], rfl, ⟨earlier, tracked⟩, ?_⟩
      intro further within
      rw [List.prefix_nil.mp within]
      exact tracked
    next =>
      obtain ⟨before, first, later, rfl, takesUp, keeps⟩ := ih earlier
      refine ⟨before, first, later ++ [call], by simp, takesUp, keeps.concat ?_⟩
      simpa [after] using tracked

/-- After any calls, what is known of a query follows from the reports of it since the last call
that took it up, that call included: it is prepared under the first name that was given to it, or
counted. However the cache is used from then on, until it loses the query, only reports of the query
change what is known of it; a count does not fall and a name stays. -/
theorem standing_of_reports (policy : Policy) (calls : List Call) (query : Query)
    (standing : Standing)
    (tracked : ((empty policy).after calls).standing? query = some standing) :
    (∃ before call later, calls = before ++ call :: later ∧
      ((empty policy).after before).TakesUp call query ∧
      (((empty policy).after before).serve call).2.Keeps query later ∧
      standing = earned (((empty policy).after before).reports query (call :: later))) ∧
    (∀ times, standing = .counted times → 1 ≤ times) ∧
    ∀ more, ((empty policy).after calls).Keeps query more →
      ∃ next, (((empty policy).after calls).after more).standing? query = some next ∧
        ((∀ call ∈ more, call.recorded? ≠ some query) → next = standing) ∧
        standing.Develops next := by
  obtain ⟨before, call, later, rfl, takesUp, keeps⟩ :=
    exists_takesUp (rfl : (empty policy).standing? query = none) calls (by simp [tracked])
  obtain ⟨plan, reported, begun⟩ := takesUp.standing
  have reports : ((empty policy).after before).reports query (call :: later) =
      [plan] ++ (((empty policy).after before).serve call).2.reports query later := by
    rw [Cache.reports, reported, Option.toList_some]
  have now : standing = earned (((empty policy).after before).reports query (call :: later)) := by
    have known := standing_kept begun keeps
    rw [← reports] at known
    refine Option.some.inj (tracked.symm.trans (Eq.trans ?_ known))
    simp [after]
  refine ⟨⟨before, call, later, rfl, takesUp, keeps, now⟩, ?_, ?_⟩
  next =>
    intro times counted
    rw [now, reports, earned] at counted
    split at counted
    next => simp at counted
    next =>
      obtain rfl := Standing.counted.inj counted
      have limit : 1 ≤ countLimit := by decide
      simp only [List.length_append, List.length_singleton]
      omega
  next =>
    intro more kept
    refine ⟨_, standing_kept (now ▸ tracked) kept, fun others => ?_, ?_⟩
    next => rw [reports_of_others others, List.append_nil, ← now]
    next =>
      rw [now]
      exact earned_develops _ _

theorem standing_of_reports_race :
    let query : Query := ⟨Bytes.ofAscii "a", []⟩
    let other : Query := ⟨Bytes.ofAscii "b", []⟩
    let done : List Reply := [⟨.rows, none⟩]
    let calls : List Call := [.record query .direct done, .record other .direct done,
      .record query .direct done, .setThreshold none, .record query (.prepare [1]) done,
      .setThreshold (some 3), .plan query (some true), .plan query (some true),
      .record query (.prepare (statementName 1)) [],
      .record query (.prepare (statementName 0)) done]
    let cache := (empty ⟨some 5, 1⟩).after calls
    (∃ before call later, calls = before ++ call :: later ∧
      ((empty ⟨some 5, 1⟩).after before).TakesUp call query ∧
      (((empty ⟨some 5, 1⟩).after before).serve call).2.Keeps query later ∧
      .prepared (statementName 1) =
        earned (((empty ⟨some 5, 1⟩).after before).reports query (call :: later))) ∧
    (cache.after [.record query .direct [], .setCapacity 0]).standing? query =
      some (.prepared (statementName 1)) := by
  intro query other done calls cache
  obtain ⟨taken, -, later⟩ := standing_of_reports ⟨some 5, 1⟩ calls query
    (.prepared (statementName 1)) (by decide)
  have prefixes : ∀ further ∈ List.inits [.record query .direct [], .setCapacity 0],
      (cache.after further).standing? query ≠ none := by decide
  obtain ⟨next, held, -, develops⟩ := later [.record query .direct [], .setCapacity 0]
    fun further within => prefixes further ((List.mem_inits _ _).mpr within)
  refine ⟨taken, ?_⟩
  rw [held, develops]

end Cache

end DatabaseClient.Statement
