/-
The store as a participant in commits.

A participant call looks at the transaction's status, calls the backend, notes a commit, and
releases what the transaction has locked.  Other calls may come between these steps, so each is a
stage of its own.
-/
import ObjectStore.Store.Store

namespace ObjectStore

/-- What a participant is asked to do with a transaction. -/
inductive ParticipantCall where
  /-- Get ready for a commit.  A transaction that has written nothing is committed at once. -/
  | prepare
  /-- Commit a transaction that is prepared. -/
  | commit
  | prepareAndCommit
  | abort
  deriving DecidableEq, Repr

/-- How far a participant call has come. -/
inductive ParticipantStage where
  /-- About to look at the status. -/
  | enter (call : ParticipantCall)
  /-- About to call the backend. -/
  | backend (call : ParticipantCall)
  /-- The backend has committed; the status is to follow. -/
  | committed (reply : Reply)
  | releaseObjects (result : Except StoreError Reply)
  | releaseNames (result : Except StoreError Reply)
  /-- The transaction is about to learn of a failure. -/
  | failing (error : StoreError)
  | ended (result : Except StoreError Reply)

namespace ParticipantStage

/-- How many steps are left at most. -/
def stepsLeft : ParticipantStage → Nat
  | enter _ => 6
  | backend _ => 5
  | committed _ => 4
  | releaseObjects _ => 3
  | releaseNames _ => 2
  | failing _ => 1
  | ended _ => 0

/-- The answer of a call that has ended.  A call that has not ended has none to give. -/
def result : ParticipantStage → Except StoreError Reply
  | ended result => result
  | _ => .error (.internal "participant call has not ended")

/-- Goes on to an answer. -/
def ofResult : Except StoreError Reply → ParticipantStage
  | .ok reply => ended (.ok reply)
  | .error e => failing e

end ParticipantStage

namespace Store

variable {ρo ρn β : Type}

/-- The look at the status with which a participant call begins. -/
def enter (t : TxnId) (call : ParticipantCall) (s : Store ρo ρn β) :
    Except StoreError Unit × Store ρo ρn β :=
  match call with
  | .prepare | .prepareAndCommit => s.updateTxn t (·.beginPrepare s.now)
  | .commit => ((s.register.find t).checkPrepared, s)
  | .abort => s.updateTxn t (·.beginParticipantAbort)

variable [Reporter ρo ObjectId] [Reporter ρn NameKey] [Backend β]

/-- The call of the backend that belongs to a participant call. -/
def callBackend (t : TxnId) (call : ParticipantCall) (s : Store ρo ρn β) :
    ParticipantStage × Store ρo ρn β :=
  match call with
  | .prepare =>
    match s.call t .prepare with
    | (.ok true, s) => (.committed (.readOnly true), s)
    | (.ok false, s) => (.ended (.ok (.readOnly false)), s)
    | (.error e, s) => (.failing e, s)
  | .commit =>
    match s.call t .commit with
    | (.ok _, s) => (.committed .done, s)
    | (.error e, s) => (.failing e, s)
  | .prepareAndCommit =>
    match s.call t .prepareAndCommit with
    | (.ok _, s) => (.committed .done, s)
    | (.error e, s) => (.failing e, s)
  | .abort =>
    let (result, s) := s.call t .abort
    (.releaseObjects (result.map fun _ => .done), s)

/-- One step of a participant call. -/
def participantStep (t : TxnId) (stage : ParticipantStage) (s : Store ρo ρn β) :
    ParticipantStage × Store ρo ρn β :=
  match stage with
  | .enter call =>
    match s.enter t call with
    | (.ok _, s) => (.backend call, s)
    | (.error e, s) => (.failing e, s)
  | .backend call => s.callBackend t call
  | .committed reply =>
    let (_, s) := s.updateTxn t fun txn => ((), txn.completeCommit)
    (.releaseObjects (.ok reply), s)
  | .releaseObjects result =>
    (.releaseNames result, { s with objects := Reporter.finish t s.objects })
  | .releaseNames result => (.ofResult result, { s with names := Reporter.finish t s.names })
  | .failing e => (.ended (.error e), s.noteFailure t e)
  | .ended _ => (stage, s)

/-- Every step brings a participant call closer to its end. -/
theorem stepsLeft_participantStep (t : TxnId) (stage : ParticipantStage) (s : Store ρo ρn β) :
    (s.participantStep t stage).1.stepsLeft ≤ stage.stepsLeft - 1 := by
  cases stage with
  | enter call =>
      simp only [participantStep]
      split <;> simp [ParticipantStage.stepsLeft]
  | backend call =>
      cases call <;> simp only [participantStep, callBackend]
      · split <;> simp [ParticipantStage.stepsLeft]
      · split <;> simp [ParticipantStage.stepsLeft]
      · split <;> simp [ParticipantStage.stepsLeft]
      · simp [ParticipantStage.stepsLeft]
  | committed reply => simp [participantStep, ParticipantStage.stepsLeft]
  | releaseObjects result => simp [participantStep, ParticipantStage.stepsLeft]
  | releaseNames result =>
      cases result <;> simp [participantStep, ParticipantStage.ofResult, ParticipantStage.stepsLeft]
  | failing e => simp [participantStep, ParticipantStage.stepsLeft]
  | ended result => simp [participantStep, ParticipantStage.stepsLeft]

/-- A number of steps of a participant call, with nothing in between. -/
def participantSteps (t : TxnId) : Nat → ParticipantStage → Store ρo ρn β →
    ParticipantStage × Store ρo ρn β
  | 0, stage, s => (stage, s)
  | n + 1, stage, s =>
    let (stage, s) := s.participantStep t stage
    participantSteps t n stage s

/-- As many steps as are left bring a participant call to its end. -/
theorem stepsLeft_participantSteps (t : TxnId) :
    ∀ (n : Nat) (stage : ParticipantStage) (s : Store ρo ρn β), stage.stepsLeft ≤ n →
      (s.participantSteps t n stage).1.stepsLeft = 0 := by
  intro n
  induction n with
  | zero => intro stage s h; exact Nat.le_zero.mp h
  | succ n ih =>
      intro stage s h
      have hstep := stepsLeft_participantStep t stage s
      exact ih _ _ (Nat.le_trans hstep (Nat.sub_le_of_le_add h))

/-- A participant call from beginning to end, with nothing in between. -/
def participate (t : TxnId) (call : ParticipantCall) (s : Store ρo ρn β) :
    Except StoreError Reply × Store ρo ρn β :=
  let stage := ParticipantStage.enter call
  let (stage, s) := s.participantSteps t stage.stepsLeft stage
  (stage.result, s)

end Store

end ObjectStore
