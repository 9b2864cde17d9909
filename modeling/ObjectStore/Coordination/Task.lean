/-
Tasks, and the places where they run.

A task is run in a transaction, perhaps several times.  What it does next depends only on the
replies it has had: those of earlier attempts and those of the current one.
-/
import ObjectStore.Store.Participant

namespace ObjectStore

/-- What a task can do in its transaction. -/
inductive TaskAction where
  | operate (op : Operation)
  | participate (call : ParticipantCall)
  /-- Describe an object or a name. -/
  | describe (subject : Subject) (text : String)
  /-- Abort the transaction. -/
  | cancel (cause : AbortCause)
  /-- Ask whether the transaction is active. -/
  | check
  /-- Fail on its own account. -/
  | fail (fault : Fault)

/-- What a task learns from an action that succeeds. -/
inductive TaskReply where
  | reply (r : Reply)
  | described
  /-- Whether the transaction was aborted by the action. -/
  | cancelled (moved : Bool)
  | active
  deriving DecidableEq, Repr

/-- The replies of one attempt, in order. -/
abbrev TaskHistory := List (Except StoreError TaskReply)

/-- What a task does next. -/
inductive TaskMove (V : Type) where
  | act (action : TaskAction)
  | stop (result : Except Fault V)

/-- A task that comes to a value: its next move, given the earlier attempts and the current one. -/
abbrev Task (V : Type) := List TaskHistory → TaskHistory → TaskMove V

/-! ### Tasks written as lists -/

/-- An action, and whether the attempt goes on if it fails. -/
structure TaskStep where
  action : TaskAction
  ignoresFailure : Bool

/-- The steps of one attempt and what it comes to at their end. -/
structure TaskAttempt (V : Type) where
  steps : List TaskStep
  result : Except Fault V

namespace TaskAttempt

variable {V : Type}

/-- The next move of an attempt that has had some replies. -/
def move (a : TaskAttempt V) (history : TaskHistory) : TaskMove V :=
  let next :=
    match a.steps[history.length]? with
    | some step => .act step.action
    | none => .stop a.result
  match history.getLast? with
  | some (.error e) =>
    if (a.steps[history.length - 1]?).any (·.ignoresFailure) then next else .stop (.error fun _ => e)
  | _ => next

end TaskAttempt

/-- The task that makes given attempts one after another, repeats the last of them, and if there
are none comes to `idle` at once. -/
def Task.ofAttempts {V : Type} (idle : V) (attempts : List (TaskAttempt V)) : Task V :=
  fun earlier history =>
    match (attempts[earlier.length]?).or attempts.getLast? with
    | some a => a.move history
    | none => .stop (.ok idle)

/-! ### Where tasks run -/

/-- Places of type `σ` where tasks can run. -/
class TaskHost (σ : Type) where
  /-- Begins a transaction that may live for a while. -/
  begin : TxnId → Seniority → (lifetime : Nat) → σ → σ
  /-- The transaction of a number. -/
  find : TxnId → σ → Txn
  /-- Attaches a description to an object or a name. -/
  describe : TxnId → Subject → String → σ → σ
  /-- Aborts a transaction for a cause; says whether it did. -/
  cancel : TxnId → AbortCause → σ → Bool × σ
  /-- Sees whether a transaction is active. -/
  check : TxnId → σ → Except StoreError Unit × σ
  /-- Begins an operation. -/
  start : TxnId → Operation → σ → Stage × σ
  /-- Takes one step of an operation. -/
  step : TxnId → Stage → σ → Stage × σ
  /-- Whether an operation can take a step. -/
  canStep : TxnId → Stage → σ → Bool
  /-- Makes a participant call. -/
  participate : TxnId → ParticipantCall → σ → Except StoreError Reply × σ

end ObjectStore
