/-
Why a transaction was aborted.

Every cause but a request leaves hope: the task may be tried again in a new transaction.
-/
import ObjectStore.Identifier

namespace ObjectStore

/-- The cause of an abort. -/
inductive AbortCause where
  /-- The deadline passed before an operation. -/
  | timeout
  /-- A lock was not granted before the deadline. -/
  | conflict (resource key : String) (holder : Option TxnId)
  /-- An older transaction took a key. -/
  | wounded (elder : TxnId)
  /-- The deadline passed while a key was held, and another transaction wanted it. -/
  | evicted
  /-- Somebody asked for it. -/
  | requested (reason : String)
  deriving DecidableEq, Repr

namespace AbortCause

/-- The cause in words. -/
def text : AbortCause → String
  | timeout => "transaction timed out"
  | conflict resource key (some holder) =>
    s!"lock conflict in {resource} on key {key} with txn {holder.text}"
  | conflict resource key none =>
    s!"lock conflict in {resource} on key {key} with an unknown holder"
  | wounded elder => s!"wounded by older transaction {elder.text}"
  | evicted => "evicted after its deadline passed"
  | requested reason => reason

/-- The parts by name. -/
def label : AbortCause → String
  | timeout => "Timeout"
  | conflict resource key holder =>
    s!"Conflict \x7b resource: {Text.quote resource}, key: {Text.quote key}, " ++
      s!"holder: {Text.optional TxnId.label holder} \x7d"
  | wounded elder => s!"Wounded \x7b by: {elder.label} \x7d"
  | evicted => "Evicted"
  | requested reason => s!"Requested({Text.quote reason})"

/-- Whether the task may be tried again. -/
def isRetryable : AbortCause → Bool
  | requested _ => false
  | _ => true

end AbortCause

end ObjectStore
