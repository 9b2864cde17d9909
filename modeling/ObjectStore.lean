import ObjectStore.Access.Session
import ObjectStore.Access.Watched
import ObjectStore.Backend.Scripted
import ObjectStore.Coordination.Rehearsal
import ObjectStore.Coordination.Session
import ObjectStore.Locking.Party
import ObjectStore.Locking.Session
import ObjectStore.Service.Session
import ObjectStore.Settings.Document
import ObjectStore.Settings.Property
import ObjectStore.Proofs.Locking.Contest
import ObjectStore.Proofs.Locking.Table
import ObjectStore.Proofs.Locking.Run
import ObjectStore.Proofs.Locking.Exclusion
import ObjectStore.Proofs.Locking.Waiting
import ObjectStore.Proofs.Locking.Stranded
import ObjectStore.Proofs.Transaction.Register
import ObjectStore.Proofs.Transaction.Age
import ObjectStore.Proofs.Store.Run
import ObjectStore.Proofs.Store.Step
import ObjectStore.Proofs.Store.Retention
import ObjectStore.Proofs.Store.Deadlock
import ObjectStore.Proofs.Store.Answers
import ObjectStore.Proofs.Backend.Names
import ObjectStore.Proofs.Backend.Buffer
import ObjectStore.Proofs.Naming.Replay
import ObjectStore.Proofs.Store.Plan
import ObjectStore.Proofs.Store.Transcript
import ObjectStore.Proofs.Store.Ending
import ObjectStore.Proofs.Store.Beside
import ObjectStore.Proofs.Store.Traced
import ObjectStore.Proofs.Store.Consistency
import ObjectStore.Proofs.Store.History
import ObjectStore.Proofs.Store.Alone
import ObjectStore.Proofs.Store.Serial
import ObjectStore.Proofs.Naming.Order
import ObjectStore.Proofs.Store.Fence
import ObjectStore.Proofs.Store.Scan
import ObjectStore.Proofs.Store.Rescan
import ObjectStore.Proofs.Store.Ledger
import ObjectStore.Proofs.Store.Atomicity
import ObjectStore.Proofs.Store.Cover
import ObjectStore.Proofs.Store.Reread
import ObjectStore.Proofs.Transaction.Course
import ObjectStore.Proofs.Store.Participation
import ObjectStore.Proofs.Store.Desk
import ObjectStore.Proofs.Store.Protocol
import ObjectStore.Proofs.Store.Failures
import ObjectStore.Proofs.Store.Agreement
import ObjectStore.Proofs.Store.Crowd
import ObjectStore.Proofs.Store.Finality
import ObjectStore.Proofs.Store.Numbering
import ObjectStore.Proofs.Store.ObjectLife
import ObjectStore.Proofs.Locking.Justice
import ObjectStore.Proofs.Locking.Overtaking
import ObjectStore.Proofs.Store.Waking
import ObjectStore.Proofs.Store.Leaving
import ObjectStore.Proofs.Backend.Overlay
import ObjectStore.Proofs.Service.Run
import ObjectStore.Proofs.Service.Step
import ObjectStore.Proofs.Service.Closing
import ObjectStore.Proofs.Service.Served
import ObjectStore.Proofs.Backend.Closed
import ObjectStore.Proofs.Service.Frozen
import ObjectStore.Proofs.Transaction.Fading
import ObjectStore.Proofs.Store.Reporting
import ObjectStore.Proofs.Store.Aside
import ObjectStore.Proofs.Coordination.Contended
import ObjectStore.Proofs.Coordination.Attempt
import ObjectStore.Proofs.Coordination.Turns
import ObjectStore.Proofs.Coordination.Next
import ObjectStore.Proofs.Coordination.ExactlyOnce
import ObjectStore.Proofs.Service.Readiness
import ObjectStore.Proofs.Access.Run
import ObjectStore.Proofs.Access.Outcome
import ObjectStore.Proofs.Locking.Upkeep
import ObjectStore.Proofs.Backend.Refusal
import ObjectStore.Proofs.Store.Phases
import ObjectStore.Proofs.Store.Halfway
import ObjectStore.Proofs.Store.Batch
import ObjectStore.Proofs.Service.Retries
import ObjectStore.Proofs.Backend.Classes
import ObjectStore.Proofs.Backend.Fresh
import ObjectStore.Proofs.Store.Iteration
import ObjectStore.Proofs.Clock
import ObjectStore.Proofs.Settings.Property
import ObjectStore.Proofs.Access.Wording
import ObjectStore.Proofs.Locking.Sharding
import ObjectStore.Proofs.Naming.Keys
import ObjectStore.Proofs.Store.Pursuit
