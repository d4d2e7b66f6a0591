import Mathlib.Data.List.TakeWhile
import DatabaseClient.Proofs.Statement.Issue
import DatabaseClient.Proofs.Statement.Preparation

set_option autoImplicit false

namespace DatabaseClient

namespace Bytes

def blanks : Bytes := [0x20, 0x09, 0x0A, 0x0D, 0x0C]

theorem isBlank_iff (b : UInt8) : isBlank b = true ↔ b ∈ blanks := by
  simp [isBlank, blanks, or_assoc]

theorem firstWord_eq_iff (bytes : Bytes) {word : Bytes} (unbroken : ∀ b ∈ word, b ∉ blanks) :
    bytes.firstWord = word ↔
      bytes = word ∨ ∃ blank rest, blank ∈ blanks ∧ bytes = word ++ blank :: rest := by
  have whole : ∀ b ∈ word, (!isBlank b) = true := by
    intro b member
    have plain : isBlank b ≠ true := fun blank => unbroken b member ((isBlank_iff b).mp blank)
    simpa using plain
  constructor
  next =>
    rintro rfl
    have joined : bytes.firstWord ++ bytes.dropWhile (!isBlank ·) = bytes :=
      List.takeWhile_append_dropWhile
    cases remainder : bytes.dropWhile (!isBlank ·) with
    | nil => exact .inl (by simpa [remainder] using joined.symm)
    | cons blank rest =>
      have stopped := List.head?_dropWhile_not (!isBlank ·) bytes
      rw [remainder] at joined stopped
      exact .inr ⟨blank, rest, (isBlank_iff blank).mp (by simpa using stopped), joined.symm⟩
  next =>
    rintro (rfl | ⟨blank, rest, member, rfl⟩)
    next => exact List.takeWhile_eq_self_iff.mpr whole
    next =>
      have stop : isBlank blank = true := (isBlank_iff blank).mpr member
      rw [firstWord, List.takeWhile_append_of_pos whole]
      simp [stop]

end Bytes

namespace Statement

def Disruptive (tag : Bytes) : Prop :=
  tag = Bytes.ofAscii "ROLLBACK" ∨ tag = Bytes.ofAscii "DROP" ∨
    ∃ blank rest, blank ∈ Bytes.blanks ∧ tag = Bytes.ofAscii "DROP" ++ blank :: rest

theorem Reply.invalidates_iff (reply : Reply) :
    reply.invalidates = true ↔
      reply.status = .command ∧ ∃ tag, reply.tag = some tag ∧ Disruptive tag := by
  obtain ⟨status, tag⟩ := reply
  cases tag with
  | none => cases status <;> simp [invalidates]
  | some tag =>
    cases status with
    | rows | other => simp [invalidates]
    | command =>
      have unbroken : ∀ b ∈ Bytes.ofAscii "DROP", b ∉ Bytes.blanks := by
        simp [Bytes.ofAscii, Bytes.blanks]
      simp only [invalidates, Bool.or_eq_true, beq_iff_eq, tag.firstWord_eq_iff unbroken]
      simp [Disruptive]

namespace Cache

theorem discards_iff (cache : Cache) (plan : Plan) (replies : List Reply) :
    cache.discards plan replies = true ↔
      (cache.entries ≠ [] ∨ ∃ name, plan = .prepare name) ∧
        ∃ reply ∈ replies, reply.status = .command ∧
          ∃ tag, reply.tag = some tag ∧ Disruptive tag := by
  simp [discards, Plan.prepares_iff, Reply.invalidates_iff]

theorem record_discards_iff {cache : Cache} (enabled : cache.policy.threshold ≠ none)
    (query : Query) (plan : Plan) (replies : List Reply) :
    (cache.record query plan replies).1 = some .deallocateAll ↔
      cache.discards plan replies = true := by
  constructor
  next =>
    intro command
    by_contra undisturbed
    rcases cache.record_cases query plan replies with
      ⟨-, record⟩ | ⟨-, discarded, -⟩ | ⟨standing, -, -, -, record⟩ | ⟨-, -, -, -, record⟩ |
        ⟨-, -, -, -, record⟩
    case inr.inl => exact undisturbed discarded
    case inr.inr.inr.inr =>
      rw [record] at command
      rcases evict_cases (cache.touch query (initial plan)) with
        ⟨-, evicted⟩ | ⟨rest, other, times, -, -, evicted⟩ | ⟨rest, other, name, -, -, evicted⟩ <;>
        simp [evicted] at command
    all_goals simp [record] at command
  next =>
    intro discarded
    rw [record, if_neg enabled, if_pos discarded]

structure NamedFrom (cache : Cache) (first : Nat) : Prop where
  issued : first ≤ cache.issued
  names : ∀ query name, (query, .prepared name) ∈ cache.entries →
    ∃ n, first ≤ n ∧ name = statementName n

namespace NamedFrom

variable {cache : Cache} {first : Nat} (namedFrom : cache.NamedFrom first)
include namedFrom

theorem planned {query : Query} {choice : Option Bool} {name : Bytes}
    (plan : (cache.plan query choice).1 = .prepare name) :
    ∃ n, first ≤ n ∧ name = statementName n :=
  ⟨cache.issued, namedFrom.issued, (plan_prepare plan).2.2.1⟩

theorem perform {action : Action} (unreset : action ≠ .reset) :
    (cache.perform action).2.NamedFrom first := by
  refine ⟨namedFrom.issued.trans (cache.numbers_perform unreset).le, ?_⟩
  intro other name member
  cases action with
  | execute query choice replies =>
    rw [perform_execute] at member
    rcases prepared_of_record member with earlier | ⟨-, plan, -⟩
    next => exact namedFrom.names other name (by rwa [entries_plan] at earlier)
    next => exact namedFrom.planned plan
  | reset => exact absurd rfl unreset
  | setThreshold | setCapacity => exact namedFrom.names other name member

theorem run {actions : List Action} (unreset : Action.reset ∉ actions) :
    (cache.run actions).NamedFrom first := by
  induction actions using List.reverseRecOn with
  | nil => exact namedFrom
  | append_singleton actions action ih =>
    rw [List.mem_append, List.mem_singleton, not_or] at unreset
    rw [run_append]
    exact (ih unreset.1).perform (Ne.symm unreset.2)

end NamedFrom

/-- The cache neither holds the name nor brings it up again: not to be used, and not to be
deallocated. -/
structure Forgot (cache : Cache) (name : Bytes) : Prop where
  held : name ∉ cache.preparedNames
  reused : ∀ query choice, (cache.plan query choice).1 ≠ .reuse name
  deallocated : ∀ action, (cache.perform action).1 ≠ some (.deallocate name)

theorem NamedFrom.forgot {cache : Cache} {first n : Nat} (namedFrom : cache.NamedFrom first)
    (below : n < first) : cache.Forgot (statementName n) := by
  have young {name : Bytes} (named : ∃ n, first ≤ n ∧ name = statementName n) :
      name ≠ statementName n := by
    rintro rfl
    obtain ⟨other, above, same⟩ := named
    have := statementName_injective same
    omega
  refine ⟨?_, ?_, ?_⟩
  next =>
    intro member
    obtain ⟨⟨query, standing⟩, present, named⟩ := List.mem_filterMap.mp member
    cases standing with
    | counted times => simp [Standing.name?] at named
    | prepared name => exact young (namedFrom.names query name present) (Option.some.inj named)
  next =>
    intro query choice reuse
    have known := (plan_reuse reuse).2
    exact young (namedFrom.names query _ (mem_entries_of_standing known)) rfl
  next =>
    intro action command
    obtain ⟨query, choice, replies, rfl⟩ := execute_of_deallocate command
    rw [perform_execute] at command
    rcases deallocate_of_record command with ⟨other, member⟩ | plan
    next => exact young (namedFrom.names other _ (by rwa [entries_plan] at member)) rfl
    next => exact young (namedFrom.planned plan) rfl

/-- Everything is discarded exactly if there is something to discard and a command was carried out
whose tag is disruptive. Then the cache is empty, but its names go on from where they were, so that
until it is reset no name handed out before comes back. -/
theorem record_discards (policy : Policy) (before since : List Call) (unreset : .reset ∉ since)
    (enabled : ((empty policy).after (before ++ since)).policy.threshold ≠ none) (query : Query)
    (plan : Plan) (replies : List Reply) :
    let cache := (empty policy).after (before ++ since)
    ((cache.record query plan replies).1 = some .deallocateAll ↔
      (cache.entries ≠ [] ∨ ∃ name, plan = .prepare name) ∧
        ∃ reply ∈ replies, reply.status = .command ∧
          ∃ tag, reply.tag = some tag ∧ Disruptive tag) ∧
    ((cache.record query plan replies).1 = some .deallocateAll →
      (cache.record query plan replies).2 = { cache with entries := [] } ∧
      ∀ later, Action.reset ∉ later →
        ∀ name ∈ ((empty policy).after before).handedOut since,
          ((cache.record query plan replies).2.run later).Forgot name) := by
  intro cache
  have exactly := record_discards_iff enabled query plan replies
  refine ⟨exactly.trans (cache.discards_iff plan replies), ?_⟩
  intro command
  have cleared : (cache.record query plan replies).2 = { cache with entries := [] } := by
    rw [record, if_neg enabled, if_pos (exactly.mp command)]
  refine ⟨cleared, ?_⟩
  intro later unresetLater name issued
  obtain ⟨n, -, below, rfl⟩ :=
    (((empty policy).after before).numbers_handedOut unreset).exists_of_mem issued
  rw [after_after] at below
  have start : Cache.NamedFrom { cache with entries := [] } cache.issued := ⟨Nat.le_refl _, by simp⟩
  rw [cleared]
  exact (start.run unresetLater).forgot below

theorem record_discards_drop :
    let query : Query := ⟨Bytes.ofAscii "a", []⟩
    let dropping : Query := ⟨Bytes.ofAscii "b", []⟩
    let done : List Reply := [⟨.rows, none⟩]
    let replies : List Reply := [⟨.rows, some (Bytes.ofAscii "SELECT 1")⟩,
      ⟨.command, some (Bytes.ofAscii "DROP\tTABLE t")⟩]
    let before : List Call := [.plan query (some true), .reset]
    let since : List Call := [.plan query (some true),
      .record query (.prepare (statementName 0)) done,
      .plan dropping (some true)]
    let cache := (empty ⟨some 1, 10⟩).after (before ++ since)
    let left := (cache.record dropping (.prepare (statementName 1)) replies).2
    (cache.record dropping (.prepare (statementName 1)) replies).1 = some .deallocateAll ∧
    left.entries = [] ∧ left.issued = 2 ∧
    ∀ name ∈ [statementName 0, statementName 1],
      (left.run [.execute query (some true) done, .setCapacity 0]).Forgot name := by
  intro query dropping done replies before since cache left
  obtain ⟨exactly, discarded⟩ := record_discards ⟨some 1, 10⟩ before since (by decide) (by decide)
    dropping (.prepare (statementName 1)) replies
  have disruptive : Disruptive (Bytes.ofAscii "DROP\tTABLE t") :=
    .inr (.inr ⟨0x09, Bytes.ofAscii "TABLE t", by decide, by decide⟩)
  have command := exactly.mpr
    ⟨.inr ⟨_, rfl⟩, _, List.mem_cons_of_mem _ (List.mem_singleton_self _), rfl, _, rfl, disruptive⟩
  obtain ⟨cleared, forgot⟩ := discarded command
  have issued : ((empty ⟨some 1, 10⟩).after before).handedOut since =
      [statementName 0, statementName 1] := by decide
  rw [issued] at forgot
  exact ⟨command, congrArg Cache.entries cleared, congrArg Cache.issued cleared,
    forgot _ (by decide)⟩

end Cache

end Statement

end DatabaseClient
