import Mathlib.Data.Finmap
import DatabaseClient.Proofs.Statement.Actions
import DatabaseClient.Proofs.Statement.Names

set_option autoImplicit false

namespace DatabaseClient.Statement

abbrev Server := Finmap fun _ : Bytes => Query

namespace Server

def start (server : Server) (query : Query) : Plan → Server
  | .prepare name => server.insert name query
  | _ => server

def obey (server : Server) : Option Upkeep → Server
  | none => server
  | some .deallocateAll => ∅
  | some (.deallocate name) => server.erase name

theorem lookup_of_obey {server : Server} {command : Option Upkeep} {name : Bytes} {query : Query}
    (held : (server.obey command).lookup name = some query) : server.lookup name = some query := by
  match command with
  | none => exact held
  | some .deallocateAll => simp [obey] at held
  | some (.deallocate gone) =>
    by_cases same : name = gone
    next =>
      subst same
      simp [obey] at held
    next => simpa [obey, Finmap.lookup_erase_ne same] using held

end Server

structure Session where
  cache : Cache
  server : Server

namespace Session

def begin (policy : Policy) : Session := ⟨.empty policy, ∅⟩

/-- What the server holds when the command that follows an action reaches it. -/
def meanwhile (session : Session) : Action → Server
  | .execute query choice _ => session.server.start query (session.cache.plan query choice).1
  | _ => session.server

def step (session : Session) (action : Action) : Session :=
  ⟨(session.cache.perform action).2,
    (session.meanwhile action).obey (session.cache.perform action).1⟩

def run (policy : Policy) (actions : List Action) : Session :=
  actions.foldl step (begin policy)

@[simp] theorem run_append (policy : Policy) (actions : List Action) (action : Action) :
    run policy (actions ++ [action]) = (run policy actions).step action := by
  simp [run]

theorem lookup_meanwhile (session : Session) (query : Query) (choice : Option Bool)
    (replies : List Reply) (name : Bytes) :
    (session.meanwhile (.execute query choice replies)).lookup name =
      if (session.cache.plan query choice).1 = .prepare name then some query
      else session.server.lookup name := by
  rw [meanwhile]
  cases (session.cache.plan query choice).1 with
  | direct | reuse => simp [Server.start]
  | prepare new =>
    by_cases same : new = name
    next => simp [Server.start, same]
    next => simp [Server.start, same, Finmap.lookup_insert_of_ne _ (Ne.symm same)]

theorem cache_run (policy : Policy) (actions : List Action) :
    (run policy actions).cache = (Cache.empty policy).run actions := by
  induction actions using List.reverseRecOn with
  | nil => rfl
  | append_singleton actions action ih => simp [step, ih]

end Session

namespace Server

structure Backs (server : Server) (cache : Cache) : Prop where
  distinct : cache.Distinct
  held : ∀ query name, (query, .prepared name) ∈ cache.entries → server.lookup name = some query

theorem Backs.touch {server : Server} {cache : Cache} (backs : server.Backs cache) {query : Query}
    {standing : Standing}
    (fits : ∀ name, standing = .prepared name → server.lookup name = some query) :
    server.Backs (cache.touch query standing) := by
  refine ⟨backs.distinct.touch query standing, ?_⟩
  intro other name member
  rcases Cache.mem_touch.mp member with ⟨rfl, same⟩ | ⟨member, -⟩
  next => exact fits name same.symm
  next => exact backs.held other name member

theorem Backs.evict {server : Server} {cache : Cache} (backs : server.Backs cache) :
    (server.obey cache.evict.1).Backs cache.evict.2 := by
  refine ⟨backs.distinct.evict, ?_⟩
  intro other name member
  obtain ⟨dropped, kept⟩ := cache.evict_entries
  have known : server.lookup name = some other := by
    apply backs.held
    rw [kept]
    exact List.mem_append_left _ member
  rcases cache.evict_cases with
    ⟨-, evicted⟩ | ⟨rest, query, times, -, -, evicted⟩ | ⟨rest, query, gone, -, entries, evicted⟩
  next => simpa [evicted, obey] using known
  next => simpa [evicted, obey] using known
  next =>
    rw [evicted] at member ⊢
    have last := backs.held query gone (by simp [entries])
    have different : name ≠ gone := by
      -- Of one name, the server holds one query; of that query, the cache has one entry.
      rintro rfl
      obtain rfl : other = query := by simpa [known] using last
      have distinct := backs.distinct
      rw [Cache.Distinct, entries, List.map_append, List.nodup_append] at distinct
      exact distinct.2.2 _ (List.mem_map_of_mem member) _ (by simp) rfl
    simpa [obey, Finmap.lookup_erase_ne different] using known

section Record

variable {server : Server} {cache : Cache} {query : Query} {plan : Plan}

theorem Backs.advance (backs : server.Backs cache)
    (started : ∀ name, plan = .prepare name → server.lookup name = some query)
    {standing : Standing} (known : cache.standing? query = some standing) :
    server.Backs (cache.touch query (Cache.advance plan standing)) := by
  apply backs.touch
  intro name same
  rcases Cache.advance_eq_prepared same with rfl | new
  next => exact backs.held query name (Cache.mem_entries_of_standing known)
  next => exact started name new

theorem Backs.initial (backs : server.Backs cache)
    (started : ∀ name, plan = .prepare name → server.lookup name = some query) :
    server.Backs (cache.touch query (Cache.initial plan)) :=
  backs.touch fun name same => started name (Cache.initial_eq_prepared same)

theorem Backs.record (backs : server.Backs cache)
    (started : ∀ name, plan = .prepare name → server.lookup name = some query)
    (replies : List Reply) :
    (server.obey (cache.record query plan replies).1).Backs
      (cache.record query plan replies).2 := by
  rcases cache.record_cases query plan replies with
    ⟨-, record⟩ | ⟨-, -, record⟩ | ⟨standing, -, -, known, record⟩ | ⟨-, -, -, -, record⟩ |
      ⟨-, -, -, -, record⟩ <;> rw [record]
  next => exact backs
  next => exact ⟨List.nodup_nil, by simp⟩
  next => exact backs.advance started known
  next => exact backs
  next => exact (backs.initial started).evict

theorem Backs.deallocated_record (backs : server.Backs cache)
    (started : ∀ name, plan = .prepare name → server.lookup name = some query)
    {replies : List Reply} {name : Bytes}
    (command : (cache.record query plan replies).1 = some (.deallocate name)) :
    ∃ query, server.lookup name = some query := by
  rcases Cache.deallocate_of_record command with ⟨other, member⟩ | plan
  next => exact ⟨other, backs.held other name member⟩
  next => exact ⟨query, started name plan⟩

end Record

def Spare (server : Server) (cache : Cache) : Prop :=
  ∀ name query, server.lookup name = some query → (query, .prepared name) ∈ cache.entries

theorem Spare.evict {server : Server} {cache : Cache} (spare : server.Spare cache) :
    (server.obey cache.evict.1).Spare cache.evict.2 := by
  intro name query held
  rcases cache.evict_cases with
    ⟨-, evicted⟩ | ⟨rest, other, times, -, entries, evicted⟩ |
      ⟨rest, other, gone, -, entries, evicted⟩ <;> rw [evicted] at held ⊢
  next => exact spare name query held
  next => simpa [entries] using spare name query held
  next =>
    have different : name ≠ gone := by
      rintro rfl
      simp [obey] at held
    have before := spare name query (by simpa [obey, Finmap.lookup_erase_ne different] using held)
    simpa [entries, different] using before

theorem Spare.touch {server : Server} {cache : Cache} {query : Query} {standing : Standing}
    (spare : ∀ name other, server.lookup name = some other →
      (other = query ∧ standing = .prepared name) ∨
        ((other, .prepared name) ∈ cache.entries ∧ other ≠ query)) :
    server.Spare (cache.touch query standing) := by
  intro name other held
  rcases spare name other held with ⟨same, prepared⟩ | earlier
  next => exact Cache.mem_touch.mpr (.inl ⟨same, prepared.symm⟩)
  next => exact Cache.mem_touch.mpr (.inr earlier)

theorem Spare.record {server : Server} {cache : Cache} {query : Query} {plan : Plan}
    (distinct : cache.Distinct)
    (spare : ∀ name other, server.lookup name = some other →
      (other, .prepared name) ∈ cache.entries ∨ (other = query ∧ plan = .prepare name))
    (enabled : plan.prepares = true → cache.policy.threshold ≠ none)
    (unprepared : plan.prepares = true → cache.Unprepared query)
    {replies : List Reply} (succeeded : plan.prepares = true → Succeeded replies) :
    (server.obey (cache.record query plan replies).1).Spare
      (cache.record query plan replies).2 := by
  have unchanged (idle : plan.prepares = false) : server.Spare cache := by
    intro name other held
    rcases spare name other held with earlier | ⟨-, rfl⟩
    next => exact earlier
    next => simp [Plan.prepares] at idle
  rcases cache.record_cases query plan replies with
    ⟨off, record⟩ | ⟨-, -, record⟩ | ⟨standing, -, -, known, record⟩ | ⟨-, -, -, refused, record⟩ |
      ⟨-, -, absent, -, record⟩ <;> rw [record]
  -- Nothing was started without a threshold.
  next => exact unchanged (Bool.eq_false_iff.mpr fun prepares => enabled prepares off)
  next =>
    intro name other held
    simp [obey] at held
  next =>
    apply Spare.touch
    intro name other held
    rcases spare name other held with earlier | ⟨rfl, rfl⟩
    next =>
      by_cases same : other = query
      next =>
        subst same
        have prepared := distinct.unique (Cache.mem_entries_of_standing known) earlier
        exact .inl ⟨rfl, by rw [prepared]; rfl⟩
      next => exact .inr ⟨earlier, same⟩
    next =>
      refine .inl ⟨rfl, Cache.advance_prepare fun prepared same => ?_⟩
      exact unprepared rfl prepared (same ▸ known)
  next =>
    -- A started statement would have been admitted, because its preparation succeeded.
    have idle : plan.prepares = false := Bool.eq_false_iff.mpr fun prepares => by
      simp [(Cache.admits_iff replies).mpr (succeeded prepares)] at refused
    exact unchanged idle
  next =>
    apply Spare.evict
    apply Spare.touch
    intro name other held
    rcases spare name other held with earlier | ⟨rfl, rfl⟩
    next =>
      refine .inr ⟨earlier, ?_⟩
      rintro rfl
      simp [distinct.standing earlier] at absent
    next => exact .inl ⟨rfl, rfl⟩

end Server

namespace Session

structure InStep (session : Session) : Prop where
  backs : session.server.Backs session.cache
  issued : ∀ name query, session.server.lookup name = some query →
    ∃ n < session.cache.issued, name = Cache.statementName n

variable {session : Session}

theorem InStep.unused (inStep : session.InStep) :
    session.server.lookup (Cache.statementName session.cache.issued) = none := by
  cases held : session.server.lookup (Cache.statementName session.cache.issued) with
  | none => rfl
  | some query =>
    obtain ⟨n, below, same⟩ := inStep.issued _ query held
    have := Cache.statementName_injective same
    omega

theorem InStep.planned (inStep : session.InStep) (query : Query) (choice : Option Bool)
    (replies : List Reply) :
    (session.meanwhile (.execute query choice replies)).Backs
      (session.cache.plan query choice).2 := by
  refine ⟨inStep.backs.distinct.plan query choice, ?_⟩
  intro other name member
  rw [Cache.entries_plan] at member
  have known := inStep.backs.held other name member
  -- A new name is not on the server.
  have old : (session.cache.plan query choice).1 ≠ .prepare name := by
    intro plan
    obtain ⟨-, -, rfl, -⟩ := Cache.plan_prepare plan
    simp [inStep.unused] at known
  rw [lookup_meanwhile, if_neg old, known]

theorem started (session : Session) (query : Query) (choice : Option Bool) (replies : List Reply)
    (name : Bytes) (plan : (session.cache.plan query choice).1 = .prepare name) :
    (session.meanwhile (.execute query choice replies)).lookup name = some query := by
  rw [lookup_meanwhile, if_pos plan]

theorem InStep.begin (policy : Policy) : (begin policy).InStep where
  backs := ⟨Cache.distinct_empty policy, by simp [Session.begin, Cache.empty]⟩
  issued := by simp [Session.begin]

theorem InStep.step (inStep : session.InStep) (action : Action) :
    (session.step action).InStep := by
  cases action with
  | execute query choice replies =>
    have planned := inStep.planned query choice replies
    refine ⟨planned.record (session.started query choice replies) replies, ?_⟩
    intro name other held
    have before := Server.lookup_of_obey held
    simp only [Session.step, Cache.perform_execute, Cache.issued_record]
    rw [lookup_meanwhile] at before
    split at before
    next plan =>
      obtain ⟨-, -, named, issued⟩ := Cache.plan_prepare plan
      exact ⟨session.cache.issued, by omega, named⟩
    next =>
      obtain ⟨n, below, same⟩ := inStep.issued name other before
      exact ⟨n, Nat.lt_of_lt_of_le below (session.cache.issued_le_plan query choice), same⟩
  | reset =>
    rcases session.cache.reset_cases with ⟨-, reset⟩ | ⟨-, reset⟩
    next => simpa [Session.step, Cache.perform, meanwhile, reset, Server.obey] using inStep
    next =>
      rw [Session.step, Cache.perform, reset]
      exact ⟨⟨List.nodup_nil, by simp⟩, by simp [Server.obey]⟩
  | setThreshold threshold => exact ⟨⟨inStep.backs.distinct, inStep.backs.held⟩, inStep.issued⟩
  | setCapacity capacity => exact ⟨⟨inStep.backs.distinct, inStep.backs.held⟩, inStep.issued⟩

theorem InStep.deallocated (inStep : session.InStep) (action : Action) (name : Bytes)
    (command : (session.cache.perform action).1 = some (.deallocate name)) :
    ∃ query, (session.meanwhile action).lookup name = some query := by
  obtain ⟨query, choice, replies, rfl⟩ := Cache.execute_of_deallocate command
  exact (inStep.planned query choice replies).deallocated_record
    (session.started query choice replies) command

theorem InStep.run (policy : Policy) (actions : List Action) : (run policy actions).InStep := by
  induction actions using List.reverseRecOn with
  | nil => exact .begin policy
  | append_singleton actions action ih =>
    rw [run_append]
    exact ih.step action

theorem InStep.spare_step (inStep : session.InStep) (spare : session.server.Spare session.cache)
    (action : Action) (succeeded : ∀ execution ∈ session.cache.execution? action,
      execution.plan.prepares = true → Succeeded execution.replies) :
    (session.step action).server.Spare (session.step action).cache := by
  cases action with
  | execute query choice replies =>
    have ready (prepares : (session.cache.plan query choice).1.prepares = true) :
        session.cache.policy.threshold ≠ none ∧ session.cache.Unprepared query := by
      obtain ⟨name, plan⟩ := Plan.prepares_iff.mp prepares
      obtain ⟨enabled, unprepared, -, -⟩ := Cache.plan_prepare plan
      exact ⟨enabled, unprepared⟩
    simp only [Session.step, Cache.perform_execute]
    apply Server.Spare.record (inStep.planned query choice replies).distinct
    next =>
      intro name other held
      rw [lookup_meanwhile] at held
      split at held
      next plan => exact .inr ⟨(Option.some.inj held).symm, plan⟩
      next =>
        rw [Cache.entries_plan]
        exact .inl (spare name other held)
    next =>
      rw [Cache.policy_plan]
      exact fun prepares => (ready prepares).1
    next => simpa [Cache.Unprepared] using fun prepares => (ready prepares).2
    next => exact succeeded _ rfl
  | reset =>
    rcases session.cache.reset_cases with ⟨-, reset⟩ | ⟨-, reset⟩ <;>
      simp only [Session.step, Cache.perform, meanwhile, reset]
    next => exact spare
    next => simp [Server.Spare, Server.obey]
  | setThreshold threshold => exact spare
  | setCapacity capacity => exact spare

theorem spare_run (policy : Policy) (actions : List Action)
    (succeeded : ∀ execution ∈ (Cache.empty policy).executions actions,
      execution.plan.prepares = true → Succeeded execution.replies) :
    (run policy actions).server.Spare (run policy actions).cache := by
  induction actions using List.reverseRecOn with
  | nil => simp [run, begin, Server.Spare]
  | append_singleton actions action ih =>
    rw [run_append]
    rw [Cache.executions_append] at succeeded
    have earlier := ih fun execution member =>
      succeeded execution (List.mem_append_left _ member)
    refine (InStep.run policy actions).spare_step earlier action fun execution member => ?_
    rw [cache_run] at member
    exact succeeded execution (List.mem_append_right _ (by simpa using member))

/-- However a connection is used: a new name is free on the server, a name that is to be used again
belongs to the same query there, and so does every name in the cache; a statement that is to be
deallocated exists. If every preparation succeeds, the server holds nothing but what the cache takes
for prepared. -/
theorem run_synchronised (policy : Policy) (actions : List Action) :
    let session := run policy actions
    (∀ query choice name, (session.cache.plan query choice).1 = .prepare name →
      session.server.lookup name = none) ∧
    (∀ query choice name, (session.cache.plan query choice).1 = .reuse name →
      session.server.lookup name = some query) ∧
    (∀ query name, (query, .prepared name) ∈ session.cache.entries →
      session.server.lookup name = some query) ∧
    (∀ action name, (session.cache.perform action).1 = some (.deallocate name) →
      ∃ query, (session.meanwhile action).lookup name = some query) ∧
    ((∀ execution ∈ (Cache.empty policy).executions actions,
        execution.plan.prepares = true → Succeeded execution.replies) →
      ∀ name query, session.server.lookup name = some query →
        (query, .prepared name) ∈ session.cache.entries) := by
  intro session
  have inStep : session.InStep := .run policy actions
  refine ⟨?_, ?_, inStep.backs.held, inStep.deallocated, spare_run policy actions⟩
  next =>
    intro query choice name plan
    obtain ⟨-, -, rfl, -⟩ := Cache.plan_prepare plan
    exact inStep.unused
  next =>
    intro query choice name plan
    have known := (Cache.plan_reuse plan).2
    exact inStep.backs.held query name (Cache.mem_entries_of_standing known)

end Session

end DatabaseClient.Statement
