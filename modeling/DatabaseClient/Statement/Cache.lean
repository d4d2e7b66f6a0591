import DatabaseClient.Statement.Basic
import DatabaseClient.Statement.Policy

/-!
The record of the queries that ran on one connection, in order of use. Planning an execution only
hands out names; the record changes when the execution is reported.
-/

set_option autoImplicit false

namespace DatabaseClient.Statement

structure Cache where
  policy : Policy
  -- Most recently used first; no query occurs twice.
  entries : List (Query × Standing)
  -- How many names were handed out.
  issued : Nat
deriving DecidableEq

namespace Cache

def empty (policy : Policy) : Cache := ⟨policy, [], 0⟩

def standing? (cache : Cache) (query : Query) : Option Standing :=
  cache.entries.lookup query

def oldestFirst (cache : Cache) : List (Query × Standing) :=
  cache.entries.reverse

def preparedNames (cache : Cache) : List Bytes :=
  cache.entries.filterMap (·.2.name?)

def statementName (n : Nat) : Bytes :=
  Bytes.ofAscii "_pg3_" ++ Bytes.decimal n

def plan (cache : Cache) (query : Query) (choice : Option Bool) : Plan × Cache :=
  let fresh :=
    (Plan.prepare (statementName cache.issued), { cache with issued := cache.issued + 1 })
  match cache.policy.threshold with
  | none => (.direct, cache)
  | some threshold =>
    if choice = some false then (.direct, cache)
    else match cache.standing? query with
      | some (.prepared name) => (.reuse name, cache)
      | some (.counted times) =>
        if threshold ≤ times ∨ choice = some true then fresh else (.direct, cache)
      | none => if threshold = 0 ∨ choice = some true then fresh else (.direct, cache)

def advance (plan : Plan) : Standing → Standing
  | .prepared name => .prepared name
  | .counted times =>
    match plan with
    | .prepare name => .prepared name
    | _ => .counted (min (times + 1) countLimit)

def initial : Plan → Standing
  | .prepare name => .prepared name
  | _ => .counted 1

def without (cache : Cache) (query : Query) : List (Query × Standing) :=
  cache.entries.filter (·.1 ≠ query)

def touch (cache : Cache) (query : Query) (standing : Standing) : Cache :=
  { cache with entries := (query, standing) :: cache.without query }

/-- Drops the least recently used entry if there are too many. Only one is dropped, however many
there are, because only one can be deallocated. -/
def evict (cache : Cache) : Option Upkeep × Cache :=
  if cache.entries.length ≤ cache.policy.capacity then (none, cache)
  else
    ((cache.entries.getLast?.bind (·.2.name?)).map .deallocate,
      { cache with entries := cache.entries.dropLast })

/-- Whether the replies end everything that is prepared. An empty cache need not care, unless a
statement was prepared just now. -/
def discards (cache : Cache) (plan : Plan) (replies : List Reply) : Bool :=
  (!cache.entries.isEmpty || plan.prepares) && replies.any Reply.invalidates

def admits : List Reply → Bool
  | [reply] => reply.succeeded
  | _ => false

def record (cache : Cache) (query : Query) (plan : Plan) (replies : List Reply) :
    Option Upkeep × Cache :=
  if cache.policy.threshold = none then (none, cache)
  else if cache.discards plan replies then (some .deallocateAll, { cache with entries := [] })
  else match cache.standing? query with
    | some standing => (none, cache.touch query (advance plan standing))
    | none =>
      if admits replies then (cache.touch query (initial plan)).evict else (none, cache)

def execute (cache : Cache) (query : Query) (choice : Option Bool) (replies : List Reply) :
    Plan × Option Upkeep × Cache :=
  let (plan, cache) := cache.plan query choice
  (plan, cache.record query plan replies)

def reset (cache : Cache) : Option Upkeep × Cache :=
  if cache.issued = 0 then (none, cache)
  else (some .deallocateAll, { cache with entries := [], issued := 0 })

def setThreshold (cache : Cache) (threshold : Option Nat) : Cache :=
  { cache with policy := { cache.policy with threshold } }

def setCapacity (cache : Cache) (capacity : Nat) : Cache :=
  { cache with policy := { cache.policy with capacity } }

end Cache

end DatabaseClient.Statement
