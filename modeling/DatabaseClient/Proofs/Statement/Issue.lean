import DatabaseClient.Proofs.Statement.Actions
import DatabaseClient.Proofs.Statement.Calls
import DatabaseClient.Proofs.Statement.Names

set_option autoImplicit false

namespace DatabaseClient.Statement

def Answer.newName? : Answer → Option Bytes
  | .plan chosen => chosen.newName?
  | _ => none

def newNames (executions : List Execution) : List Bytes :=
  executions.filterMap (·.plan.newName?)

def Numbers (first last : Nat) (names : List Bytes) : Prop :=
  ∃ count, last = first + count ∧ names = (List.range' first count).map Cache.statementName

namespace Numbers

variable {first middle last : Nat} {names others : List Bytes}

theorem nil (first : Nat) : Numbers first first [] := ⟨0, rfl, rfl⟩

theorem append (low : Numbers first middle names) (high : Numbers middle last others) :
    Numbers first last (names ++ others) := by
  obtain ⟨count, rfl, rfl⟩ := low
  obtain ⟨more, rfl, rfl⟩ := high
  refine ⟨count + more, Nat.add_assoc _ _ _, ?_⟩
  rw [← List.range'_append_1, List.map_append]

theorem le (numbers : Numbers first last names) : first ≤ last := by
  obtain ⟨count, rfl, -⟩ := numbers
  exact Nat.le_add_right _ _

theorem exists_of_mem (numbers : Numbers first last names) {name : Bytes} (member : name ∈ names) :
    ∃ n, first ≤ n ∧ n < last ∧ name = Cache.statementName n := by
  obtain ⟨count, rfl, rfl⟩ := numbers
  obtain ⟨n, within, rfl⟩ := List.mem_map.mp member
  obtain ⟨low, high⟩ := List.mem_range'_1.mp within
  exact ⟨n, low, high, rfl⟩

theorem of_getElem? (numbers : Numbers first last names) {i : Nat} {name : Bytes}
    (present : names[i]? = some name) : name = Cache.statementName (first + i) := by
  obtain ⟨count, -, rfl⟩ := numbers
  obtain ⟨within, rfl⟩ := List.getElem?_eq_some_iff.mp present
  simp

theorem nodup (numbers : Numbers first last names) : names.Nodup := by
  obtain ⟨count, -, rfl⟩ := numbers
  exact List.Nodup.map Cache.statementName_injective List.nodup_range'

end Numbers

namespace Cache

def handedOut (cache : Cache) : List Call → List Bytes
  | [] => []
  | call :: rest => (cache.serve call).1.newName?.toList ++ (cache.serve call).2.handedOut rest

theorem numbers_plan (cache : Cache) (query : Query) (choice : Option Bool) :
    Numbers cache.issued (cache.plan query choice).2.issued
      (cache.plan query choice).1.newName?.toList := by
  rcases cache.plan_cases query choice with
    ⟨-, plan⟩ | ⟨name, -, -, -, plan⟩ | ⟨threshold, -, -, -, -, plan⟩ <;> rw [plan]
  next => exact .nil _
  next => exact .nil _
  next => exact ⟨1, rfl, rfl⟩

theorem numbers_serve (cache : Cache) {call : Call} (unreset : call ≠ .reset) :
    Numbers cache.issued (cache.serve call).2.issued (cache.serve call).1.newName?.toList := by
  cases call with
  | plan query choice => exact cache.numbers_plan query choice
  | record query plan replies =>
    rw [serve, issued_record]
    exact .nil _
  | reset => exact absurd rfl unreset
  | setThreshold | setCapacity | standing | size | queries | names => exact .nil _

theorem numbers_handedOut (cache : Cache) {calls : List Call} (unreset : Call.reset ∉ calls) :
    Numbers cache.issued (cache.after calls).issued (cache.handedOut calls) := by
  induction calls generalizing cache with
  | nil => exact .nil _
  | cons call rest ih =>
    obtain ⟨first, others⟩ := not_or.mp (List.mem_cons.not.mp unreset)
    exact (cache.numbers_serve (Ne.symm first)).append (ih _ others)

theorem numbers_perform (cache : Cache) {action : Action} (unreset : action ≠ .reset) :
    Numbers cache.issued (cache.perform action).2.issued
      (newNames (cache.execution? action).toList) := by
  cases action with
  | execute query choice replies =>
    rw [perform_execute, issued_record]
    convert cache.numbers_plan query choice using 1
    cases named : (cache.plan query choice).1.newName? <;>
      simp [newNames, execution?, named]
  | reset => exact absurd rfl unreset
  | setThreshold | setCapacity => exact .nil _

theorem numbers_executions (cache : Cache) {actions : List Action}
    (unreset : Action.reset ∉ actions) :
    Numbers cache.issued (cache.run actions).issued (newNames (cache.executions actions)) := by
  induction actions generalizing cache with
  | nil => exact .nil _
  | cons action rest ih =>
    obtain ⟨first, others⟩ := not_or.mp (List.mem_cons.not.mp unreset)
    rw [executions, newNames, List.filterMap_append]
    exact (cache.numbers_perform (Ne.symm first)).append (ih _ others)

end Cache

end DatabaseClient.Statement
