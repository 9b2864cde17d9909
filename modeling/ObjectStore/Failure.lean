/-
How an operation of the store can fail.

Two failures concern the transaction itself: it is no longer active, or it is aborted now.  They
carry the cause of the abort, and it is the cause that decides whether the task may be tried again.
-/
import ObjectStore.Transaction.Cause
import ObjectStore.Naming.Name

namespace ObjectStore

/-- A failure of the store. -/
inductive StoreError where
  | invalidArgument (text : String)
  | objectNotFound (oid : ObjectId)
  | nameNotBound (name : Name)
  | classInfoNotFound (id : ClassId)
  /-- The transaction had ended before, or is about to. -/
  | notActive (txn : TxnId) (cause : Option AbortCause)
  /-- The transaction is aborted by this failure. -/
  | aborted (txn : TxnId) (cause : AbortCause)
  | illegalState (text : String)
  | io (text : String)
  | internal (text : String)
  deriving DecidableEq, Repr

namespace StoreError

/-- The failure in words. -/
def message : StoreError → String
  | invalidArgument text => s!"invalid argument: {text}"
  | objectNotFound oid => s!"object not found: {oid.text}"
  | nameNotBound name => s!"name not bound: {name.text}"
  | classInfoNotFound id => s!"class info not found for class id {id.text}"
  | notActive txn none => s!"transaction {txn.text} is not active"
  | notActive txn (some cause) => s!"transaction {txn.text} is not active ({cause.text})"
  | aborted txn cause => s!"transaction {txn.text} aborted: {cause.text}"
  | illegalState text => s!"illegal state: {text}"
  | io text => s!"io error: {text}"
  | internal text => s!"internal error: {text}"

/-- Whether the failure aborts the transaction it happens in. -/
def isAbort : StoreError → Bool
  | aborted _ _ => true
  | _ => false

/-- The cause of the abort that the failure speaks of. -/
def abortCause? : StoreError → Option AbortCause
  | aborted _ cause => some cause
  | notActive _ cause => cause
  | _ => none

/-- Whether the task may be tried again in a new transaction. -/
def shouldRetry (e : StoreError) : Bool := e.abortCause?.any AbortCause.isRetryable

end StoreError

/-- A failure to come, which may speak of the transaction it happens to. -/
abbrev Fault := TxnId → StoreError

/-- A failure of the service around the store. -/
inductive ServiceError where
  | illegalState (text : String)
  /-- The operation must not be used by a task inside a transaction. -/
  | transactionalContext
  | spawn (text : String)
  | hook (text : String)
  | store (error : StoreError)
  deriving DecidableEq, Repr

/-- The failure in words. -/
def ServiceError.message : ServiceError → String
  | illegalState text => s!"illegal service state: {text}"
  | transactionalContext => "operation not allowed from a transactional context"
  | spawn text => s!"failed to spawn shutdown worker: {text}"
  | hook text => s!"service hook failed: {text}"
  | store error => error.message

end ObjectStore
