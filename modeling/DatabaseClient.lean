import DatabaseClient.Bytes
import DatabaseClient.Utf8
import DatabaseClient.Errno
import DatabaseClient.Error
import DatabaseClient.Duration
import DatabaseClient.Parameters
import DatabaseClient.Number.Reading
import DatabaseClient.Number.Binary64
import DatabaseClient.Timeouts
import DatabaseClient.Statement.Basic
import DatabaseClient.Statement.Policy
import DatabaseClient.Statement.Cache
import DatabaseClient.Socket.Readiness
import DatabaseClient.Socket.Operation
import DatabaseClient.Socket.Kernel
import DatabaseClient.Socket.Report
import DatabaseClient.Socket.Multiplexed
import DatabaseClient.Socket.OneShot
import DatabaseClient.Socket.Reactor
import DatabaseClient.Socket.Strategy
import DatabaseClient.Proofs.Ascii
import DatabaseClient.Proofs.Parameters
import DatabaseClient.Proofs.Number.Rounding
import DatabaseClient.Proofs.Number.Order
import DatabaseClient.Proofs.Number.Precision
import DatabaseClient.Proofs.Number.Reading
import DatabaseClient.Proofs.Number.Scientific
import DatabaseClient.Proofs.Timeouts
import DatabaseClient.Proofs.Decimal
import DatabaseClient.Proofs.Monotone
import DatabaseClient.Proofs.Statement.Policy
import DatabaseClient.Proofs.Composition
import DatabaseClient.Proofs.Statement.Names
import DatabaseClient.Proofs.Statement.Transitions
import DatabaseClient.Proofs.Statement.Actions
import DatabaseClient.Proofs.Statement.Calls
import DatabaseClient.Proofs.Statement.Server
import DatabaseClient.Proofs.Statement.Preparation
import DatabaseClient.Proofs.Statement.Promotion
import DatabaseClient.Proofs.Statement.Lifetime
import DatabaseClient.Proofs.Statement.Invalidation
import DatabaseClient.Proofs.Statement.Recency
import DatabaseClient.Proofs.Statement.Size
import DatabaseClient.Proofs.Statement.Issue
import DatabaseClient.Proofs.Statement.Ownership
import DatabaseClient.Proofs.Statement.Conservation
import DatabaseClient.Proofs.Statement.Abandonment
import DatabaseClient.Proofs.Statement.Upkeep
import DatabaseClient.Proofs.Socket.Polling
import DatabaseClient.Proofs.Socket.Rounds
import DatabaseClient.Proofs.Socket.Course
import DatabaseClient.Proofs.Socket.Timeless
import DatabaseClient.Proofs.Socket.Interchange
import DatabaseClient.Proofs.Socket.Agreement
import DatabaseClient.Proofs.Socket.Log
import DatabaseClient.Proofs.Socket.Resumption
import DatabaseClient.Proofs.Socket.Registration
import DatabaseClient.Proofs.Socket.Arming
import DatabaseClient.Proofs.Socket.Conformity
import DatabaseClient.Proofs.Socket.Race
import DatabaseClient.Proofs.Socket.Release
import DatabaseClient.Proofs.Socket.Leeway
import DatabaseClient.Proofs.Socket.Expiry
import DatabaseClient.Proofs.Socket.Overflow
import DatabaseClient.Proofs.Socket.FixedSocket
