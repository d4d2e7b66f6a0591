import Mathlib.Algebra.Order.Group.Multiset
import DatabaseClient.Proofs.Statement.Actions
import DatabaseClient.Proofs.Statement.Calls

set_option autoImplicit false

namespace DatabaseClient.Statement

/-- The names that an answer tells to deallocate, if these are held. -/
def Answer.released (held : Multiset Bytes) : Answer → Multiset Bytes
  | .upkeep (some .deallocateAll) => held
  | .upkeep (some (.deallocate name)) => {name}
  | _ => 0

namespace Cache

def stored? (cache : Cache) : Call → Option Bytes
  | .record query plan replies =>
    if cache.policy.threshold = none ∨ cache.discards plan replies = true then none
    else match cache.standing? query with
      | some (.counted _) => plan.newName?
      | some (.prepared _) => none
      | none => if admits replies then plan.newName? else none
  | _ => none

def Inserts (cache : Cache) (query : Query) (plan : Plan) (replies : List Reply) : Prop :=
  cache.policy.threshold ≠ none ∧ cache.discards plan replies = false ∧
    cache.standing? query = none ∧ Succeeded replies

/-- The call takes up a query and drops this entry, which is the oldest one then, and no other. -/
def Drops (cache : Cache) (call : Call) (entry : Query × Standing) : Prop :=
  ∃ query plan replies, call = .record query plan replies ∧ cache.Inserts query plan replies ∧
    cache.oldestFirst ++ [(query, initial plan)] = entry :: (cache.serve call).2.oldestFirst

def stored (cache : Cache) : List Call → Multiset Bytes
  | [] => 0
  | call :: rest => ↑(cache.stored? call).toList + (cache.serve call).2.stored rest

def released (cache : Cache) : List Call → Multiset Bytes
  | [] => 0
  | call :: rest =>
    (cache.serve call).1.released cache.preparedNames + (cache.serve call).2.released rest

def otherNames (cache : Cache) (query : Query) : List Bytes :=
  (cache.without query).filterMap (·.2.name?)

theorem without_of_absent {cache : Cache} {query : Query} (absent : cache.standing? query = none) :
    cache.without query = cache.entries := by
  apply List.filter_eq_self.mpr
  intro entry member
  have other : query ≠ entry.1 := by simpa using List.lookup_eq_none_iff.mp absent entry member
  simpa using Ne.symm other

theorem preparedNames_touch (cache : Cache) (query : Query) (standing : Standing) :
    (cache.touch query standing).preparedNames =
      standing.name?.toList ++ cache.otherNames query := by
  cases named : standing.name? <;> simp [preparedNames, otherNames, touch, named]

theorem Distinct.preparedNames {cache : Cache} (distinct : cache.Distinct) {query : Query}
    {standing : Standing} (known : cache.standing? query = some standing) :
    (cache.preparedNames : Multiset Bytes) =
      ↑standing.name?.toList + ↑(cache.otherNames query) := by
  have member := mem_entries_of_standing known
  have single : cache.entries.Nodup := List.Nodup.of_map Prod.fst distinct
  have others : cache.entries.erase (query, standing) = cache.without query := by
    rw [single.erase_eq_filter]
    apply List.filter_congr
    rintro ⟨other, held⟩ present
    by_cases same : other = query
    next =>
      subst same
      simp [distinct.unique present member]
    next => simp [same]
  have split : cache.entries.Perm ((query, standing) :: cache.without query) :=
    others ▸ List.perm_cons_erase member
  rw [Multiset.coe_add, Multiset.coe_eq_coe]
  have names := split.filterMap (·.2.name?)
  cases named : standing.name? <;> simpa [Cache.preparedNames, otherNames, named] using names

theorem preparedNames_evict (cache : Cache) (held : Multiset Bytes) :
    (cache.preparedNames : Multiset Bytes) =
      ↑cache.evict.2.preparedNames + (Answer.upkeep cache.evict.1).released held := by
  rcases cache.evict_cases with
    ⟨-, evicted⟩ | ⟨rest, query, times, -, entries, evicted⟩ |
      ⟨rest, query, name, -, entries, evicted⟩ <;> rw [evicted]
  next => simp [Answer.released]
  next => simp [Answer.released, Cache.preparedNames, entries, Standing.name?]
  next =>
    rw [Answer.released, ← Multiset.coe_singleton, Multiset.coe_add]
    simp [Cache.preparedNames, entries, Standing.name?]

theorem stored_record {cache : Cache} {query : Query} {plan : Plan} {replies : List Reply}
    (on : cache.policy.threshold ≠ none) (undisturbed : cache.discards plan replies = false) :
    cache.stored? (.record query plan replies) =
      match cache.standing? query with
      | some (.counted _) => plan.newName?
      | some (.prepared _) => none
      | none => if admits replies then plan.newName? else none := by
  simp [stored?, on, undisturbed]

theorem name_advance (plan : Plan) (standing : Standing) :
    (advance plan standing).name?.toList =
      standing.name?.toList ++ (match standing with
        | .counted _ => plan.newName?
        | .prepared _ => none).toList := by
  cases standing <;> cases plan <;> rfl

theorem name_initial (plan : Plan) : (initial plan).name? = plan.newName? := by
  cases plan <;> rfl

theorem conserved_record {cache : Cache} (distinct : cache.Distinct) (query : Query) (plan : Plan)
    (replies : List Reply) :
    (cache.preparedNames : Multiset Bytes) + ↑(cache.stored? (.record query plan replies)).toList =
      ↑(cache.record query plan replies).2.preparedNames +
        (Answer.upkeep (cache.record query plan replies).1).released cache.preparedNames := by
  rcases cache.record_cases query plan replies with
    ⟨off, record⟩ | ⟨-, discarded, record⟩ | ⟨standing, on, undisturbed, known, record⟩ |
      ⟨on, undisturbed, absent, refused, record⟩ | ⟨on, undisturbed, absent, admitted, record⟩ <;>
    rw [record]
  next => simp [stored?, off, Answer.released]
  next => simp [stored?, discarded, Answer.released, Cache.preparedNames]
  next =>
    rw [preparedNames_touch, name_advance, distinct.preparedNames known,
      stored_record on undisturbed, known]
    simp only [← Multiset.coe_add, Answer.released, add_zero]
    cases standing <;> exact add_right_comm _ _ _
  next => simp [stored_record on undisturbed, absent, refused, Answer.released]
  next =>
    rw [← preparedNames_evict, preparedNames_touch, otherNames, without_of_absent absent,
      name_initial, stored_record on undisturbed, absent]
    simp only [admitted, if_true, ← Multiset.coe_add]
    exact add_comm _ _

theorem conserved_serve {cache : Cache} (distinct : cache.Distinct) (call : Call) :
    (cache.preparedNames : Multiset Bytes) + ↑(cache.stored? call).toList =
      ↑(cache.serve call).2.preparedNames +
        (cache.serve call).1.released cache.preparedNames := by
  cases call with
  | plan query choice => simp [serve, stored?, Answer.released, Cache.preparedNames]
  | record query plan replies => exact conserved_record distinct query plan replies
  | reset =>
    rcases cache.reset_cases with ⟨-, reset⟩ | ⟨-, reset⟩ <;>
      simp [serve, stored?, reset, Answer.released, Cache.preparedNames]
  | setThreshold | setCapacity | standing | size | queries | names =>
    simp [serve, stored?, Answer.released, Cache.preparedNames, setThreshold, setCapacity]

theorem conserved_after {cache : Cache} (distinct : cache.Distinct) (calls : List Call) :
    (cache.preparedNames : Multiset Bytes) + cache.stored calls =
      ↑(cache.after calls).preparedNames + cache.released calls := by
  induction calls generalizing cache with
  | nil => rfl
  | cons call rest ih =>
    let next := (cache.serve call).2
    let freed := (cache.serve call).1.released cache.preparedNames
    calc
      (cache.preparedNames : Multiset Bytes) +
          (↑(cache.stored? call).toList + next.stored rest)
        = ↑next.preparedNames + freed + next.stored rest := by
          rw [← add_assoc, conserved_serve distinct call]
      _ = ↑next.preparedNames + next.stored rest + freed := add_right_comm _ _ _
      _ = ↑(next.after rest).preparedNames + next.released rest + freed := by
          rw [ih (distinct.serve call)]
      _ = ↑(next.after rest).preparedNames + (freed + next.released rest) := by
          rw [add_assoc, add_comm freed]

theorem evict_oldest (cache : Cache) :
    cache.evict = (none, cache) ∨
    ∃ entry, cache.oldestFirst = entry :: cache.evict.2.oldestFirst ∧
      cache.evict.1 = entry.2.name?.map .deallocate := by
  rcases cache.evict_cases with
    ⟨-, evicted⟩ | ⟨rest, query, times, -, entries, evicted⟩ |
      ⟨rest, query, name, -, entries, evicted⟩
  next => exact .inl evicted
  next =>
    refine .inr ⟨(query, .counted times), by simp [oldestFirst, entries, evicted], ?_⟩
    rw [evicted]
    rfl
  next =>
    refine .inr ⟨(query, .prepared name), by simp [oldestFirst, entries, evicted], ?_⟩
    rw [evicted]
    rfl

theorem Inserts.record {cache : Cache} {query : Query} {plan : Plan} {replies : List Reply}
    (inserts : cache.Inserts query plan replies) :
    cache.record query plan replies = (cache.touch query (initial plan)).evict ∧
      (cache.touch query (initial plan)).oldestFirst =
        cache.oldestFirst ++ [(query, initial plan)] := by
  obtain ⟨on, undisturbed, absent, succeeded⟩ := inserts
  constructor
  next => simp [Cache.record, on, undisturbed, absent, (admits_iff replies).mpr succeeded]
  next => simp [oldestFirst, touch, without_of_absent absent]

theorem Drops.answer {cache : Cache} {call : Call} {entry : Query × Standing}
    (drops : cache.Drops call entry) :
    (cache.serve call).1 = .upkeep (entry.2.name?.map .deallocate) := by
  obtain ⟨query, plan, replies, rfl, inserts, order⟩ := drops
  obtain ⟨record, inserted⟩ := inserts.record
  rw [serve, record] at order ⊢
  rw [← inserted] at order
  rcases (cache.touch query (initial plan)).evict_oldest with roomy | ⟨oldest, dropped, command⟩
  next =>
    -- With room for all, the cache would have to be shorter than itself.
    rw [roomy] at order
    have lengths := congrArg List.length order
    simp at lengths
  next =>
    obtain ⟨rfl, -⟩ := List.cons.inj (order.symm.trans dropped)
    exact congrArg Answer.upkeep command

theorem inserts_of_deallocate {cache : Cache} {query : Query} {plan : Plan} {replies : List Reply}
    {name : Bytes} (command : (cache.record query plan replies).1 = some (.deallocate name)) :
    cache.Inserts query plan replies := by
  rcases cache.record_cases query plan replies with
    ⟨-, record⟩ | ⟨-, -, record⟩ | ⟨standing, -, -, -, record⟩ | ⟨-, -, -, -, record⟩ |
      ⟨on, undisturbed, absent, admitted, -⟩
  case inr.inr.inr.inr => exact ⟨on, undisturbed, absent, (admits_iff replies).mp admitted⟩
  all_goals simp [record] at command

theorem drops_of_deallocate {cache : Cache} {call : Call} {name : Bytes}
    (answer : (cache.serve call).1 = .upkeep (some (.deallocate name))) :
    ∃ oldest, cache.Drops call (oldest, .prepared name) := by
  cases call with
  | record query plan replies =>
    have command : (cache.record query plan replies).1 = some (.deallocate name) :=
      Answer.upkeep.inj answer
    have inserts := inserts_of_deallocate command
    obtain ⟨record, inserted⟩ := inserts.record
    rw [record] at command
    rcases (cache.touch query (initial plan)).evict_oldest with
      roomy | ⟨⟨oldest, standing⟩, dropped, released⟩
    next => simp [roomy] at command
    next =>
      rw [released] at command
      cases standing with
      | counted times => simp [Standing.name?] at command
      | prepared held =>
        obtain rfl : held = name := by simpa [Standing.name?] using command
        refine ⟨oldest, query, plan, replies, rfl, inserts, ?_⟩
        rw [serve, record, ← inserted]
        exact dropped
  | reset =>
    rcases cache.reset_cases with ⟨-, reset⟩ | ⟨-, reset⟩ <;> simp [serve, reset] at answer
  | plan | setThreshold | setCapacity | standing | size | queries | names => simp [serve] at answer

theorem emptied_of_deallocateAll {cache : Cache} {call : Call}
    (answer : (cache.serve call).1 = .upkeep (some .deallocateAll)) :
    (cache.serve call).2.entries = [] := by
  cases call with
  | record query plan replies =>
    have command : (cache.record query plan replies).1 = some .deallocateAll :=
      Answer.upkeep.inj answer
    rw [serve]
    rcases cache.record_cases query plan replies with
      ⟨-, record⟩ | ⟨-, -, record⟩ | ⟨standing, -, -, -, record⟩ | ⟨-, -, -, -, record⟩ |
        ⟨-, -, -, -, record⟩ <;> rw [record] at command ⊢
    case inr.inr.inr.inr =>
      -- An eviction deallocates one name at most.
      rcases (cache.touch query (initial plan)).evict_oldest with roomy | ⟨entry, -, released⟩
      next => simp [roomy] at command
      next => simp [released] at command
    all_goals simp at command ⊢
  | reset =>
    rcases cache.reset_cases with ⟨-, reset⟩ | ⟨-, reset⟩ <;> simp [serve, reset] at answer ⊢
  | plan | setThreshold | setCapacity | standing | size | queries | names => simp [serve] at answer

/-- Whatever a cache holds, as long as no query occurs twice in it: what it held before a call and
what the call stores is what it holds afterwards and what the answer releases. To deallocate all is
to hold nothing. To deallocate a name is to drop one entry, the oldest after a query was taken up;
if that is merely counted, there is no command. What each call conserves, any number of calls does.
-/
theorem names_conserved (cache : Cache) (distinct : cache.Distinct) :
    (∀ call,
      let answer := (cache.serve call).1
      let later := (cache.serve call).2
      (cache.preparedNames : Multiset Bytes) + ↑(cache.stored? call).toList =
        ↑later.preparedNames + answer.released cache.preparedNames ∧
      (answer = .upkeep (some .deallocateAll) → later.entries = []) ∧
      (∀ name, answer = .upkeep (some (.deallocate name)) ↔
        ∃ oldest, cache.Drops call (oldest, .prepared name)) ∧
      ∀ oldest times, cache.Drops call (oldest, .counted times) → answer = .upkeep none) ∧
    ∀ calls, (cache.preparedNames : Multiset Bytes) + cache.stored calls =
      ↑(cache.after calls).preparedNames + cache.released calls := by
  refine ⟨fun call => ⟨conserved_serve distinct call, ?_, ?_, ?_⟩, conserved_after distinct⟩
  next => exact emptied_of_deallocateAll
  next =>
    intro name
    refine ⟨drops_of_deallocate, ?_⟩
    rintro ⟨oldest, drops⟩
    exact drops.answer
  next => exact fun oldest times drops => drops.answer

theorem names_conserved_shared :
    let query (letter : String) : Query := ⟨Bytes.ofAscii letter, []⟩
    let name := statementName 7
    let done : List Reply := [⟨.rows, none⟩]
    let gone : List Reply := [⟨.command, some (Bytes.ofAscii "ROLLBACK")⟩]
    let cache : Cache := ⟨⟨some 5, 1⟩,
      [(query "a", .prepared name), (query "b", .counted 3), (query "c", .prepared name)], 0⟩
    let first : Call := .record (query "d") (.prepare (statementName 8)) done
    let second : Call := .record (query "e") .direct done
    let third : Call := .record (query "a") (.reuse name) gone
    let next := (cache.serve first).2
    let last := (next.serve second).2
    cache.Distinct ∧
    (↑[name, name] + ↑[statementName 8] : Multiset Bytes) = ↑next.preparedNames + {name} ∧
    (∃ oldest, cache.Drops first (oldest, .prepared name)) ∧
    (next.serve second).1 = .upkeep none ∧ (last.serve third).2.entries = [] := by
  intro query name done gone cache first second third next last
  have distinct : cache.Distinct := by
    change (cache.entries.map Prod.fst).Nodup
    decide
  have answer : (cache.serve first).1 = .upkeep (some (.deallocate name)) := by decide
  obtain ⟨balance, -, drops, -⟩ := (names_conserved cache distinct).1 first
  obtain ⟨-, -, -, silent⟩ := (names_conserved next (distinct.serve first)).1 second
  obtain ⟨-, empties, -⟩ := (names_conserved last ((distinct.serve first).serve second)).1 third
  rw [answer] at balance
  refine ⟨distinct, balance, (drops name).mp answer, ?_, empties (by decide)⟩
  refine silent (query "b") 3 ⟨query "e", .direct, done, rfl, ?_, by decide⟩
  exact ⟨by decide, by decide, by decide, by decide⟩

end Cache

end DatabaseClient.Statement
