/-
Running a task to a commit.

Each attempt runs the task in a transaction of its own and asks the participant to commit it.  When
the task or the commit fails, the transaction is aborted, at the participant too unless that is
done already.  If the failure leaves hope and there are retries left, another attempt is made with
the same seniority; otherwise the run ends with the failure.
-/
import ObjectStore.Coordination.Coordinator
import ObjectStore.Coordination.Task

namespace ObjectStore

/-- Where a run stands. -/
inductive RunStage (V : Type) where
  /-- An attempt is about to begin. -/
  | beginning
  /-- The task is about to make its next move. -/
  | moving
  /-- The task has an operation under way. -/
  | operating (stage : Stage)
  /-- The task has come to a value, which is about to be committed. -/
  | committing (value : V)
  /-- The attempt has failed. -/
  | failing (error : StoreError)
  | ended (result : Except StoreError V)

/-- A task being run. -/
structure Run (V : Type) where
  task : Task V
  seniority : Seniority
  retriesLeft : Nat
  lifetime : Nat
  /-- Earlier attempts, the first one first. -/
  earlier : List (TxnId × TaskHistory)
  /-- The transaction of the current attempt, and the replies so far. -/
  txn : TxnId
  history : TaskHistory
  stage : RunStage V

namespace Run

variable {V σ : Type}

/-- A run that is about to make its first attempt. -/
def new (task : Task V) (seniority : Seniority) (settings : TransactionSettings) (lifetime : Nat) :
    Run V :=
  ⟨task, seniority, settings.maxTaskRetries, lifetime, [], ⟨0⟩, [], .beginning⟩

/-- Every attempt and its replies. -/
def attempts (r : Run V) : List (TxnId × TaskHistory) := r.earlier ++ [(r.txn, r.history)]

/-- Adds a reply to the current attempt. -/
def hear (reply : Except StoreError TaskReply) (r : Run V) : Run V :=
  { r with history := r.history ++ [reply], stage := .moving }

/-- Goes on from an operation that has taken a step. -/
def follow (stage : Stage) (r : Run V) : Run V :=
  match stage with
  | .ended result => r.hear (result.map .reply)
  | stage => { r with stage := .operating stage }

variable [TaskHost σ]

/-- Lets the task perform an action. -/
def act (action : TaskAction) (r : Run V) (s : σ) : Run V × σ :=
  match action with
  | .operate op =>
    let (stage, s) := TaskHost.start r.txn op s
    (r.follow stage, s)
  | .participate call =>
    let (result, s) := TaskHost.participate r.txn call s
    (r.hear (result.map .reply), s)
  | .describe subject text =>
    (r.hear (.ok .described), TaskHost.describe r.txn subject text s)
  | .cancel cause =>
    let (moved, s) := TaskHost.cancel r.txn cause s
    (r.hear (.ok (.cancelled moved)), s)
  | .check =>
    let (result, s) := TaskHost.check r.txn s
    (r.hear (result.map fun _ => .active), s)
  | .fail fault => (r.hear (.error (fault r.txn)), s)

/-- Aborts the transaction of an attempt that has failed. -/
def cleanUp (e : StoreError) (t : TxnId) (s : σ) : σ :=
  let (_, s) := TaskHost.cancel t (.requested s!"task failed: {e.message}") s
  if (TaskHost.find t s).done then s else (TaskHost.participate t .abort s).2

/-- One step of a run. -/
def step {κ : Type} (r : Run V) (c : Coordinator κ) (s : σ) : Run V × Coordinator κ × σ :=
  match r.stage with
  | .beginning =>
    let (t, c) := c.newTxn
    ({ r with txn := t, history := [], stage := .moving }, c,
      TaskHost.begin t r.seniority r.lifetime s)
  | .moving =>
    match r.task (r.earlier.map (·.2)) r.history with
    | .act action => let (r, s) := r.act action s; (r, c, s)
    | .stop (.ok value) => ({ r with stage := .committing value }, c, s)
    | .stop (.error fault) => ({ r with stage := .failing (fault r.txn) }, c, s)
  | .operating stage =>
    let (stage, s) := TaskHost.step r.txn stage s
    (r.follow stage, c, s)
  | .committing value =>
    match TaskHost.participate r.txn .prepareAndCommit s with
    | (.ok _, s) => ({ r with stage := .ended (.ok value) }, c, s)
    | (.error e, s) => ({ r with stage := .failing e }, c, s)
  | .failing e =>
    let s := cleanUp e r.txn s
    match r.retriesLeft with
    | n + 1 =>
      if e.shouldRetry then
        ({ r with retriesLeft := n, earlier := r.attempts, stage := .beginning }, c, s)
      else ({ r with stage := .ended (.error e) }, c, s)
    | 0 => ({ r with stage := .ended (.error e) }, c, s)
  | .ended _ => (r, c, s)

/-- Whether a run can take a step that changes anything. -/
def canStep (r : Run V) (s : σ) : Bool :=
  match r.stage with
  | .operating stage => TaskHost.canStep r.txn stage s
  | .ended _ => false
  | _ => true

/-- Takes steps until the run has ended or waits. -/
def advance {κ : Type} : Nat → Run V → Coordinator κ → σ → Run V × Coordinator κ × σ
  | 0, r, c, s => (r, c, s)
  | fuel + 1, r, c, s =>
    if r.canStep s then
      let (r, c, s) := r.step c s
      advance fuel r c s
    else (r, c, s)

end Run

end ObjectStore
