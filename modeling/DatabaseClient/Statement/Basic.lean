import DatabaseClient.Utf8

set_option autoImplicit false

namespace DatabaseClient.Statement

structure Query where
  text : Bytes
  types : List UInt32
deriving DecidableEq

inductive Standing where
  -- Run this many times without being prepared.
  | counted (times : Nat)
  -- Prepared on the server under this name.
  | prepared (name : Bytes)
deriving DecidableEq

def countLimit : Nat := UInt32.size - 1

def Standing.name? : Standing → Option Bytes
  | .counted _ => none
  | .prepared name => some name

inductive Plan where
  -- Send its text.
  | direct
  -- Run the statement of this name.
  | reuse (name : Bytes)
  -- Prepare a statement under this new name, then run it.
  | prepare (name : Bytes)
deriving DecidableEq

namespace Plan

def name? : Plan → Option Bytes
  | .direct => none
  | .reuse name => some name
  | .prepare name => some name

def prepares : Plan → Bool
  | .prepare _ => true
  | _ => false

end Plan

inductive Status where
  | command
  | rows
  -- Errors, copies, empty queries.
  | other
deriving DecidableEq

structure Reply where
  status : Status
  tag : Option Bytes
deriving DecidableEq

namespace Reply

def succeeded (reply : Reply) : Bool :=
  reply.status == .command || reply.status == .rows

def invalidates (reply : Reply) : Bool :=
  match reply.status, reply.tag with
  | .command, some tag => tag == Bytes.ofAscii "ROLLBACK" || tag.firstWord == Bytes.ofAscii "DROP"
  | _, _ => false

end Reply

inductive Upkeep where
  | deallocateAll
  | deallocate (name : Bytes)
deriving DecidableEq

namespace Upkeep

def sql : Upkeep → Bytes
  | .deallocateAll => Bytes.ofAscii "DEALLOCATE ALL"
  | .deallocate name => Bytes.ofAscii "DEALLOCATE " ++ name

def display (command : Upkeep) : String :=
  Utf8.lossy command.sql

end Upkeep

end DatabaseClient.Statement
