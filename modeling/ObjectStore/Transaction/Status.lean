/-
The life of one transaction.

A transaction starts active.  Preparing it closes it for operations and shields it from wounds;
from there it is committed or aborted.  Separately, the participant is done once it has committed
or aborted the transaction at the store, and may do so only once.

Each function below is one indivisible look at the status together with one change of it.
-/
import ObjectStore.Failure
import ObjectStore.Locking.Locker

namespace ObjectStore

/-- Where a transaction stands. -/
inductive TxnState where
  | active
  | prepared
  | committed
  | aborted
  deriving DecidableEq, Repr

/-- The state in messages. -/
def TxnState.text : TxnState → String
  | active => "active"
  | prepared => "prepared"
  | committed => "committed"
  | aborted => "aborted"

/-- The state's own name. -/
def TxnState.label : TxnState → String
  | active => "Active"
  | prepared => "Prepared"
  | committed => "Committed"
  | aborted => "Aborted"

/-- A transaction. -/
structure Txn where
  id : TxnId
  seniority : Seniority
  /-- The last moment at which it may still act. -/
  deadline : Nat
  state : TxnState
  /-- Why it was aborted. -/
  cause : Option AbortCause
  /-- Whether the participant has committed or aborted it. -/
  done : Bool
  deriving DecidableEq, Repr

namespace Txn

/-- A new transaction, which is active. -/
def start (id : TxnId) (seniority : Seniority) (deadline : Nat) : Txn :=
  ⟨id, seniority, deadline, .active, none, false⟩

/-- The number behind the word for a transaction. -/
def text (t : Txn) : String := s!"txn:{t.id.text}"

/-- The number and the state by name. -/
def label (t : Txn) : String :=
  s!"Transaction \x7b id: {t.id.text}, state: {t.state.label} \x7d"

/-- The state in words, with the cause of an abort, and whether the participant is done. -/
def story (t : Txn) : String :=
  t.state.text ++ ((t.cause.map fun cause => s!": {cause.text}").getD "") ++
    (if t.done then " (done)" else "")

/-- Whether it can still acquire locks. -/
def isActive (t : Txn) : Bool := decide (t.state = .active)

/-- Whether it has been aborted. -/
def isAborted (t : Txn) : Bool := decide (t.state = .aborted)

/-- Whether a task that runs in it is still inside a transaction. -/
def isOpen (t : Txn) : Bool := decide (t.state = .active ∨ t.state = .prepared)

/-- The failure of an operation that comes too late. -/
def notActive (t : Txn) (cause : Option AbortCause) : StoreError := .notActive t.id cause

/-- The failure of a participant that has been here before. -/
def alreadyFinished (t : Txn) : StoreError :=
  .illegalState s!"participant already finished transaction {t.id.text}"

/-- Moves to aborted for a cause. -/
def toAborted (t : Txn) (cause : AbortCause) : Txn :=
  { t with state := .aborted, cause := some cause }

/-- Aborts the transaction unless it has ended; says whether it did. -/
def abort (cause : AbortCause) (t : Txn) : Bool × Txn :=
  match t.state with
  | .active | .prepared => (true, t.toAborted cause)
  | .committed | .aborted => (false, t)

/-- Aborts the transaction if its deadline has passed. -/
def meetDeadline (now : Nat) (t : Txn) : Except StoreError Unit × Txn :=
  if t.deadline < now then (.error (.aborted t.id .timeout), t.toAborted .timeout)
  else (.ok (), t)

/-- Sees whether operations may still be performed. -/
def checkActive (now : Nat) (t : Txn) : Except StoreError Unit × Txn :=
  match t.state with
  | .aborted => (.error (t.notActive t.cause), t)
  | .prepared | .committed => (.error (t.notActive none), t)
  | .active => if t.done then (.error (t.notActive none), t) else t.meetDeadline now

/-- Moves from active to prepared. -/
def beginPrepare (now : Nat) (t : Txn) : Except StoreError Unit × Txn :=
  if t.done then (.error t.alreadyFinished, t)
  else
    match t.state with
    | .aborted => (.error (t.notActive t.cause), t)
    | .prepared | .committed =>
      (.error (.illegalState s!"transaction {t.id.text} is already {t.state.text}"), t)
    | .active =>
      match t.meetDeadline now with
      | (.error e, t) => (.error e, t)
      | (.ok _, t) => (.ok (), { t with state := .prepared })

/-- Sees whether a prepared transaction may be committed. -/
def checkPrepared (t : Txn) : Except StoreError Unit :=
  if t.done then .error t.alreadyFinished
  else
    match t.state with
    | .prepared => .ok ()
    | .aborted => .error (t.notActive t.cause)
    | .active | .committed =>
      .error (.illegalState s!"transaction {t.id.text} is {t.state.text}, not prepared")

/-- Notes that the participant has committed the transaction. -/
def completeCommit (t : Txn) : Txn := { t with state := .committed, done := true }

/-- Notes that the participant is about to abort the transaction. -/
def beginParticipantAbort (t : Txn) : Except StoreError Unit × Txn :=
  if t.done then (.error t.alreadyFinished, t)
  else
    match t.state with
    | .committed =>
      (.error (.illegalState s!"transaction {t.id.text} is already committed"), t)
    | .aborted => (.ok (), { t with done := true })
    | .active | .prepared =>
      (.ok (), { t.toAborted (.requested "aborted by coordinator") with done := true })

/-- Gives up for the sake of another locker, unless it is prepared or committed. -/
def wound (reason : WoundReason TxnId) (t : Txn) : Bool × Txn :=
  match t.state with
  | .aborted => (true, t)
  | .prepared | .committed => (false, t)
  | .active =>
    match reason with
    | .outranked elder => (true, t.toAborted (.wounded elder))
    | .expired => (true, t.toAborted .evicted)

end Txn

end ObjectStore
