import DatabaseClient.Proofs.Statement.Conservation
import DatabaseClient.Proofs.Statement.Names

set_option autoImplicit false

namespace DatabaseClient.Statement

def Call.reported? : Call → Option Plan
  | .record _ reported _ => some reported
  | _ => none

namespace Cache

variable {cache : Cache} {calls : List Call}

def answers (cache : Cache) : List Call → List Answer
  | [] => []
  | call :: rest => (cache.serve call).1 :: (cache.serve call).2.answers rest

def Given (cache : Cache) (calls : List Call) : Prop :=
  ∀ i < calls.length, ∀ plan ∈ calls[i]?.bind Call.reported?,
    .plan plan ∈ (cache.answers calls).take i

instance (cache : Cache) (calls : List Call) : Decidable (cache.Given calls) :=
  inferInstanceAs (Decidable (∀ i < calls.length, ∀ plan ∈ calls[i]?.bind Call.reported?,
    .plan plan ∈ (cache.answers calls).take i))

theorem Given.mem_answers (given : cache.Given calls) {query : Query} {plan : Plan}
    {replies : List Reply} (reported : .record query plan replies ∈ calls) :
    .plan plan ∈ cache.answers calls := by
  obtain ⟨i, within, call⟩ := List.mem_iff_getElem.mp reported
  refine List.mem_of_mem_take (given i within plan ?_)
  simp [within, call, Call.reported?]

theorem mem_released {name : Bytes}
    (command : .upkeep (some (.deallocate name)) ∈ cache.answers calls) :
    name ∈ cache.released calls := by
  induction calls generalizing cache with
  | nil => simp [answers] at command
  | cons call rest ih =>
    rw [released, Multiset.mem_add]
    rcases List.mem_cons.mp command with now | later
    next =>
      left
      rw [← now]
      exact Multiset.mem_singleton_self name
    next => exact .inr (ih later)

theorem reported_of_stores {call : Call} {name : Bytes} (stores : cache.stored? call = some name) :
    ∃ query replies, call = .record query (.prepare name) replies := by
  cases call with
  | record query plan replies =>
    have named : plan.newName? = some name := by
      unfold stored? at stores
      dsimp only at stores
      split at stores
      next => simp at stores
      next =>
        split at stores
        next => exact stores
        next => simp at stores
        next => exact (Option.ite_none_right_eq_some.mp stores).2
    cases plan with
    | prepare new => exact ⟨query, replies, by rw [Option.some.inj named]⟩
    | direct | reuse => simp [Plan.newName?] at named
  | _ => simp [stored?] at stores

theorem reported_of_stored {name : Bytes} (stored : name ∈ cache.stored calls) :
    ∃ query replies, .record query (.prepare name) replies ∈ calls := by
  induction calls generalizing cache with
  | nil => simp [Cache.stored] at stored
  | cons call rest ih =>
    rw [Cache.stored, Multiset.mem_add] at stored
    rcases stored with now | later
    next =>
      have stores : cache.stored? call = some name := by simpa using now
      obtain ⟨query, replies, rfl⟩ := reported_of_stores stores
      exact ⟨query, replies, List.mem_cons_self⟩
    next =>
      obtain ⟨query, replies, reported⟩ := ih later
      exact ⟨query, replies, List.mem_cons_of_mem _ reported⟩

theorem statementName_of_given {name : Bytes}
    (planned : .plan (.prepare name) ∈ cache.answers calls) :
    ∃ n, name = statementName n := by
  induction calls generalizing cache with
  | nil => simp [answers] at planned
  | cons call rest ih =>
    rcases List.mem_cons.mp planned with now | later
    next =>
      cases call with
      | plan query choice => exact ⟨cache.issued, (plan_prepare (Answer.plan.inj now).symm).2.2.1⟩
      | _ => simp [serve] at now
    next => exact ih later

theorem Given.deallocates {policy : Policy} (given : (empty policy).Given calls) {name : Bytes}
    (command : .upkeep (some (.deallocate name)) ∈ (empty policy).answers calls) :
    .plan (.prepare name) ∈ (empty policy).answers calls := by
  have balance : name ∈
      (↑(empty policy).preparedNames : Multiset Bytes) + (empty policy).stored calls := by
    rw [conserved_after (distinct_empty policy) calls, Multiset.mem_add]
    exact .inr (mem_released command)
  have stored : name ∈ (empty policy).stored calls := by simpa [empty, preparedNames] using balance
  obtain ⟨query, replies, reported⟩ := reported_of_stored stored
  exact given.mem_answers reported

end Cache

namespace Upkeep

open Cache (statementName)

inductive Numbered : Upkeep → Prop where
  | all : Numbered .deallocateAll
  | one (n : Nat) : Numbered (.deallocate (statementName n))

theorem sql_deallocate (n : Nat) :
    (deallocate (statementName n)).sql = Bytes.ofAscii "DEALLOCATE _pg3_" ++ Bytes.decimal n := by
  rw [sql, statementName, ← List.append_assoc]
  rfl

theorem sql_deallocate_ne (n : Nat) : (deallocate (statementName n)).sql ≠ deallocateAll.sql := by
  rw [sql_deallocate]
  intro same
  simp [sql, Bytes.ofAscii] at same

namespace Numbered

variable {command other : Upkeep}

theorem sql_inj (first : command.Numbered) (second : other.Numbered)
    (same : command.sql = other.sql) : command = other := by
  cases first with
  | all =>
    cases second with
    | all => rfl
    | one n => exact absurd same.symm (sql_deallocate_ne n)
  | one n =>
    cases second with
    | all => exact absurd same (sql_deallocate_ne n)
    | one m => rw [List.append_cancel_left same]

theorem sql_ascii (numbered : command.Numbered) :
    ∃ text : String, command.sql = Bytes.ofAscii text ∧ ∀ c ∈ text.toList, c.toNat < 128 := by
  cases numbered with
  | all => exact ⟨"DEALLOCATE ALL", rfl, by simp⟩
  | one n =>
    refine ⟨"DEALLOCATE _pg3_" ++ n.repr, ?_, ?_⟩
    next => rw [sql_deallocate, Bytes.ofAscii_append, Bytes.decimal]
    next =>
      rw [String.toList_append, List.forall_mem_append]
      exact ⟨by simp, Bytes.ascii_repr n⟩

theorem display_bytes (numbered : command.Numbered) :
    command.display.toUTF8.data.toList = command.sql := by
  obtain ⟨text, sql, ascii⟩ := numbered.sql_ascii
  rw [display, sql, Utf8.lossy_ofAscii ascii, Utf8.toUTF8_ascii ascii]

end Numbered

end Upkeep

namespace Cache

theorem Given.numbered {policy : Policy} {calls : List Call} (given : (empty policy).Given calls)
    {command : Upkeep} (issued : .upkeep (some command) ∈ (empty policy).answers calls) :
    command.Numbered := by
  cases command with
  | deallocateAll => exact .all
  | deallocate name =>
    obtain ⟨n, rfl⟩ := statementName_of_given (given.deallocates issued)
    exact .one n

/-- As long as a cache gets only such plans reported as it gave, each of its commands says by its
text what it is: to deallocate all names, or one that the cache handed out. No other command has the
same text, and the text is displayed as it is. -/
theorem upkeep_unambiguous (policy : Policy) (calls : List Call)
    (given : (empty policy).Given calls) :
    let answers := (empty policy).answers calls
    ∀ command, .upkeep (some command) ∈ answers →
      ((command.sql = Bytes.ofAscii "DEALLOCATE ALL" ∧ command = .deallocateAll) ∨
        ∃ n, .plan (.prepare (Bytes.ofAscii "_pg3_" ++ Bytes.decimal n)) ∈ answers ∧
          command.sql = Bytes.ofAscii "DEALLOCATE _pg3_" ++ Bytes.decimal n ∧
          command = .deallocate (Bytes.ofAscii "_pg3_" ++ Bytes.decimal n)) ∧
      command.display.toUTF8.data.toList = command.sql ∧
      ∀ other, .upkeep (some other) ∈ answers → other.sql = command.sql → other = command := by
  intro answers command issued
  have numbered := given.numbered issued
  refine ⟨?_, numbered.display_bytes, fun other also => (given.numbered also).sql_inj numbered⟩
  cases numbered with
  | all => exact .inl ⟨rfl, rfl⟩
  | one n => exact .inr ⟨n, given.deallocates issued, Upkeep.sql_deallocate n, rfl⟩

-- A name that no cache hands out.
example : (Upkeep.deallocate (Bytes.ofAscii "ALL")).sql = Upkeep.deallocateAll.sql := by decide

theorem upkeep_unambiguous_reset :
    let query : Query := ⟨Bytes.ofAscii "a", []⟩
    let other : Query := ⟨Bytes.ofAscii "b", []⟩
    let done : List Reply := [⟨.rows, none⟩]
    let calls : List Call := [.plan query none, .plan other none,
      .record other (.prepare (statementName 1)) done,
      .record query (.prepare (statementName 0)) done, .reset,
      .plan query none, .record other (.prepare (statementName 1)) done]
    let answers := (empty ⟨some 0, 1⟩).answers calls
    let command := Upkeep.deallocate (statementName 1)
    (empty ⟨some 0, 1⟩).Given calls ∧
    .upkeep (some command) ∈ answers ∧ .upkeep (some .deallocateAll) ∈ answers ∧
    command.display.toUTF8.data.toList = Bytes.ofAscii "DEALLOCATE _pg3_1" ∧
    ∀ other, .upkeep (some other) ∈ answers → other.sql = command.sql → other = command := by
  intro query other done calls answers command
  have given : (empty ⟨some 0, 1⟩).Given calls := by decide
  have issued : .upkeep (some command) ∈ answers := by decide
  obtain ⟨-, display, single⟩ := upkeep_unambiguous ⟨some 0, 1⟩ calls given command issued
  exact ⟨given, issued, by decide, display.trans (by decide), single⟩

end Cache

end DatabaseClient.Statement
