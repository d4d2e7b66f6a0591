import Mathlib.Data.List.Infix
import Mathlib.Data.List.Induction
import DatabaseClient.Proofs.Statement.Transitions

set_option autoImplicit false

namespace DatabaseClient.Statement

inductive Action where
  | execute (query : Query) (choice : Option Bool) (replies : List Reply)
  | reset
  | setThreshold (threshold : Option Nat)
  | setCapacity (capacity : Nat)
deriving DecidableEq

structure Execution where
  query : Query
  standing : Option Standing
  plan : Plan
  replies : List Reply
deriving DecidableEq

def Succeeded (replies : List Reply) : Prop :=
  ∃ reply, replies = [reply] ∧ (reply.status = .command ∨ reply.status = .rows)

namespace Cache

theorem admits_iff (replies : List Reply) : admits replies = true ↔ Succeeded replies := by
  match replies with
  | [] | [_] | _ :: _ :: _ => simp [admits, Succeeded, Reply.succeeded]

instance (replies : List Reply) : Decidable (Succeeded replies) :=
  decidable_of_iff _ (admits_iff replies)

def perform (cache : Cache) : Action → Option Upkeep × Cache
  | .execute query choice replies => (cache.execute query choice replies).2
  | .reset => cache.reset
  | .setThreshold threshold => (none, cache.setThreshold threshold)
  | .setCapacity capacity => (none, cache.setCapacity capacity)

def run (cache : Cache) (actions : List Action) : Cache :=
  actions.foldl (fun cache action => (cache.perform action).2) cache

def execution? (cache : Cache) : Action → Option Execution
  | .execute query choice replies =>
    some ⟨query, cache.standing? query, (cache.plan query choice).1, replies⟩
  | .reset | .setThreshold _ | .setCapacity _ => none

def executions (cache : Cache) : List Action → List Execution
  | [] => []
  | action :: rest => (cache.execution? action).toList ++ (cache.perform action).2.executions rest

@[simp] theorem run_nil (cache : Cache) : cache.run [] = cache := rfl

@[simp] theorem run_append (cache : Cache) (actions : List Action) (action : Action) :
    cache.run (actions ++ [action]) = ((cache.run actions).perform action).2 := by
  simp [run]

@[simp] theorem executions_append (cache : Cache) (actions : List Action) (action : Action) :
    cache.executions (actions ++ [action]) =
      cache.executions actions ++ ((cache.run actions).execution? action).toList := by
  induction actions generalizing cache with
  | nil => simp [executions]
  | cons first rest ih => simp [executions, run, ih]

theorem exists_of_mem_executions {cache : Cache} {actions : List Action} {execution : Execution}
    (member : execution ∈ cache.executions actions) :
    ∃ before action, before ++ [action] <+: actions ∧
      (cache.run before).execution? action = some execution := by
  induction actions using List.reverseRecOn with
  | nil => simp [executions] at member
  | append_singleton actions action ih =>
    rw [executions_append, List.mem_append] at member
    rcases member with earlier | last
    next =>
      obtain ⟨before, other, within, same⟩ := ih earlier
      exact ⟨before, other, within.trans (List.prefix_append _ _), same⟩
    next => exact ⟨actions, action, List.prefix_rfl, by simpa using last⟩

theorem executions_mono (cache : Cache) {before actions : List Action}
    (within : before <+: actions) : cache.executions before <+: cache.executions actions := by
  obtain ⟨after, rfl⟩ := within
  -- From the end, so that each further action adds to what was executed before it.
  induction after using List.reverseRecOn with
  | nil => simp
  | append_singleton after action ih =>
    rw [← List.append_assoc, executions_append]
    exact ih.trans (List.prefix_append _ _)

theorem perform_execute (cache : Cache) (query : Query) (choice : Option Bool)
    (replies : List Reply) :
    cache.perform (.execute query choice replies) =
      (cache.plan query choice).2.record query (cache.plan query choice).1 replies := rfl

theorem execute_of_deallocate {cache : Cache} {action : Action} {name : Bytes}
    (command : (cache.perform action).1 = some (.deallocate name)) :
    ∃ query choice replies, action = .execute query choice replies := by
  cases action with
  | execute query choice replies => exact ⟨query, choice, replies, rfl⟩
  | reset =>
    rcases cache.reset_cases with ⟨-, reset⟩ | ⟨-, reset⟩ <;> simp [perform, reset] at command
  | setThreshold | setCapacity => simp [perform] at command

end Cache

end DatabaseClient.Statement
