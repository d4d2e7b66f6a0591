import DatabaseClient.Proofs.Statement.Issue
import DatabaseClient.Proofs.Statement.Preparation

set_option autoImplicit false

namespace DatabaseClient.Statement

def Call.claim? : Call → Option (Query × Bytes)
  | .record query reported _ => reported.newName?.map (query, ·)
  | _ => none

namespace Cache

def commission? (cache : Cache) : Call → Option (Query × Bytes)
  | .plan query choice => (cache.plan query choice).1.newName?.map (query, ·)
  | _ => none

def commissions (cache : Cache) : List Call → List (Query × Bytes)
  | [] => []
  | call :: rest => (cache.commission? call).toList ++ (cache.serve call).2.commissions rest

theorem commissions_append (cache : Cache) (calls : List Call) (call : Call) :
    cache.commissions (calls ++ [call]) =
      cache.commissions calls ++ ((cache.after calls).commission? call).toList := by
  induction calls generalizing cache with
  | nil => simp [commissions]
  | cons first rest ih => simp [commissions, after, ih]

theorem map_commission (cache : Cache) (call : Call) :
    (cache.commission? call).toList.map Prod.snd = (cache.serve call).1.newName?.toList := by
  cases call with
  | plan query choice =>
    cases named : (cache.plan query choice).1.newName? <;>
      simp [commission?, serve, Answer.newName?, named]
  | _ => rfl

theorem map_commissions (cache : Cache) (calls : List Call) :
    (cache.commissions calls).map Prod.snd = cache.handedOut calls := by
  induction calls generalizing cache with
  | nil => rfl
  | cons call rest ih => rw [commissions, handedOut, List.map_append, map_commission, ih]

/-- What is reported as prepared was handed out before, and for the same query. -/
def Faithful (cache : Cache) (calls : List Call) : Prop :=
  ∀ before call after, calls = before ++ call :: after →
    ∀ claim ∈ call.claim?, claim ∈ cache.commissions before

instance (cache : Cache) (calls : List Call) : Decidable (cache.Faithful calls) :=
  decidable_of_iff
    (∀ i < calls.length, ∀ claim ∈ calls[i]?.bind Call.claim?,
      claim ∈ cache.commissions (calls.take i)) <| by
    constructor
    next =>
      rintro faithful before call after rfl claim made
      have held := faithful before.length (by simp) claim (by simpa using made)
      simpa using held
    next =>
      intro faithful i within claim made
      rw [List.getElem?_eq_getElem within, Option.bind_some] at made
      refine faithful (calls.take i) calls[i] (calls.drop (i + 1)) ?_ claim made
      rw [← List.drop_eq_getElem_cons within, List.take_append_drop]

theorem Faithful.before {cache : Cache} {calls : List Call} {call : Call}
    (faithful : cache.Faithful (calls ++ [call])) : cache.Faithful calls := by
  rintro before earlier after rfl
  exact faithful before earlier (after ++ [call]) (by simp)

def Owns (cache : Cache) (commissions : List (Query × Bytes)) : Prop :=
  ∀ query name, (query, .prepared name) ∈ cache.entries → (query, name) ∈ commissions

theorem Owns.serve {cache : Cache} {commissions : List (Query × Bytes)}
    (owns : cache.Owns commissions) {call : Call}
    (claimed : ∀ claim ∈ call.claim?, claim ∈ commissions) :
    (cache.serve call).2.Owns commissions := by
  cases call with
  | plan query choice =>
    intro other name member
    rw [Cache.serve, entries_plan] at member
    exact owns other name member
  | record query plan replies =>
    intro other name member
    rcases prepared_of_record member with earlier | ⟨rfl, rfl, -⟩
    next => exact owns other name earlier
    next => exact claimed (other, name) (by simp [Call.claim?, Plan.newName?])
  | reset =>
    rcases cache.reset_cases with ⟨-, reset⟩ | ⟨-, reset⟩ <;> rw [Cache.serve, reset]
    next => exact owns
    next => simp [Owns]
  | setThreshold | setCapacity | standing | size | queries | names => exact owns

theorem Faithful.owns {policy : Policy} {calls : List Call}
    (faithful : (empty policy).Faithful calls) :
    ((empty policy).after calls).Owns ((empty policy).commissions calls) := by
  induction calls using List.reverseRecOn with
  | nil => simp [Owns, empty]
  | append_singleton calls call ih =>
    have owns := (ih faithful.before).serve (faithful calls call [] rfl)
    rw [after_append, commissions_append]
    exact fun query name member => List.mem_append_left _ (owns query name member)

/-- However the calls are mixed, as long as the cache is not reset, all names that it hands out are
different and numbered in their order. If preparations are reported, late or more than once or
never, but only of the queries that they were planned for, no two queries ever share a name. -/
theorem names_exclusive (policy : Policy) (calls : List Call) (unreset : Call.reset ∉ calls) :
    let cache := (empty policy).after calls
    let names := (empty policy).handedOut calls
    names.Nodup ∧
    (∀ i name, names[i]? = some name → name = Bytes.ofAscii "_pg3_" ++ Bytes.decimal i) ∧
    ((empty policy).Faithful calls → ∀ first second name,
      cache.standing? first = some (.prepared name) →
      cache.standing? second = some (.prepared name) → first = second) := by
  intro cache names
  have numbers : Numbers 0 cache.issued names := (empty policy).numbers_handedOut unreset
  refine ⟨numbers.nodup, ?_, ?_⟩
  next =>
    intro i name present
    rw [numbers.of_getElem? present, Nat.zero_add]
    rfl
  next =>
    intro faithful first second name held also
    have owns := faithful.owns
    have one := owns first name (mem_entries_of_standing held)
    have two := owns second name (mem_entries_of_standing also)
    have distinct : ((empty policy).commissions calls |>.map Prod.snd).Nodup := by
      rw [map_commissions]
      exact numbers.nodup
    exact (Prod.mk.inj (List.inj_on_of_nodup_map distinct one two rfl)).1

theorem names_exclusive_late :
    let query : Query := ⟨Bytes.ofAscii "a", []⟩
    let other : Query := ⟨Bytes.ofAscii "b", []⟩
    let done : List Reply := [⟨.rows, none⟩]
    let gone : List Reply := [⟨.command, some (Bytes.ofAscii "DROP TABLE t")⟩]
    let calls : List Call := [.plan query none, .plan other none, .plan query none,
      .record other (.prepare (statementName 1)) done,
      .record query (.prepare (statementName 0)) done, .setCapacity 5,
      .record query (.prepare (statementName 2)) gone, .plan query (some true),
      .record other (.prepare (statementName 1)) done,
      .record query (.prepare (statementName 0)) done]
    let cache := (empty ⟨some 0, 1⟩).after calls
    (empty ⟨some 0, 1⟩).handedOut calls = (List.range 4).map statementName ∧
    ((empty ⟨some 0, 1⟩).handedOut calls).Nodup ∧
    cache.standing? query = some (.prepared (statementName 0)) ∧
    ∀ third, cache.standing? third = some (.prepared (statementName 0)) → query = third := by
  intro query other done gone calls cache
  have held : cache.standing? query = some (.prepared (statementName 0)) := by decide
  obtain ⟨distinct, -, exclusive⟩ := names_exclusive ⟨some 0, 1⟩ calls (by decide)
  exact ⟨by decide, distinct, held,
    fun third also => exclusive (by decide) query third _ held also⟩

end Cache

end DatabaseClient.Statement
