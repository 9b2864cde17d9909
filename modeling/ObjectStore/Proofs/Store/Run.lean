/-
Runs of a store under many transactions.

A transaction has at most one call under way.  A call is not one action but many: it begins, and
then proceeds by one indivisible step at a time, so that calls of different transactions interleave
in every order that locks, backend and status allow.  While a call of a transaction waits it may be
wounded, evicted or cancelled.  Only a participant call shuts out a cancellation of its transaction,
which would be a second call next to it.  A turn of a lock call is one step here; `ReportTraffic`
takes it apart, for what a turn that others interrupt comes to.

A run keeps a log of what can be seen of it: accesses that were allowed, commits at the moment at
which the backend carried them out, and the answers of calls.
-/
import ObjectStore.Access.Locking
import ObjectStore.Store.Participant

namespace ObjectStore

/-- A call that is under way. -/
inductive Call where
  | operation (op : Operation) (stage : Stage)
  | participation (call : ParticipantCall) (stage : ParticipantStage)

/-- What a run shows. -/
inductive Event where
  /-- An access was reported and allowed. -/
  | accessed (t : TxnId) (access : Access)
  /-- The backend has carried the writes of the transaction out, or has found none to prepare. -/
  | committed (t : TxnId)
  | answered (t : TxnId) (op : Operation) (result : Except StoreError Reply)
  | participated (t : TxnId) (call : ParticipantCall) (result : Except StoreError Reply)

/-- What may happen next to a store. -/
inductive StoreAction where
  /-- A transaction begins; its number has not been used before. -/
  | begin (t : TxnId) (seniority : Seniority) (lifetime : Nat)
  /-- A transaction without a call under way begins an operation, -/
  | operate (t : TxnId) (op : Operation)
  /-- or a participant call. -/
  | participate (t : TxnId) (call : ParticipantCall)
  /-- The call of a transaction takes one step, if it can. -/
  | proceed (t : TxnId)
  /-- The program aborts a transaction. -/
  | cancel (t : TxnId) (cause : AbortCause)
  /-- A locker of another table asks the transaction to give up. -/
  | wound (t : TxnId) (reason : WoundReason TxnId)
  | describe (t : TxnId) (subject : Subject) (text : String)
  | tick (n : Nat)
  | shutdown

/-- A store, the calls under way, and the log, oldest event first. -/
structure Traffic (ρo ρn β : Type) where
  store : Store ρo ρn β
  calls : FinMap TxnId Call
  log : List Event

namespace Call

/-- The call that is left when an operation has come to a stage. -/
def ofStage (op : Operation) : Stage → Option Call
  | .ended _ => none
  | stage => some (.operation op stage)

theorem ofStage_eq {op op' : Operation} {stage stage' : Stage}
    (h : ofStage op stage = some (.operation op' stage')) : op = op' ∧ stage = stage' := by
  cases stage <;> cases h <;> exact ⟨rfl, rfl⟩

/-- The call that is left when a participant call has come to a stage. -/
def ofParticipantStage (call : ParticipantCall) : ParticipantStage → Option Call
  | .ended _ => none
  | stage => some (.participation call stage)

theorem ofParticipantStage_ne_operation (call : ParticipantCall) (stage : ParticipantStage)
    (op : Operation) (stage' : Stage) :
    ofParticipantStage call stage ≠ some (.operation op stage') := by
  cases stage <;> simp [ofParticipantStage]

end Call

namespace Event

/-- What is seen of one step of an operation. -/
def ofStep (t : TxnId) (op : Operation) : Stage → Stage → List Event
  | .report access _, .act _ => [accessed t access]
  | _, .ended result => [answered t op result]
  | _, _ => []

/-- What is seen of one step of a participant call. -/
def ofParticipantStep (t : TxnId) (call : ParticipantCall) :
    ParticipantStage → ParticipantStage → List Event
  | .backend _, .committed _ => [committed t]
  | _, .ended result => [participated t call result]
  | _, _ => []

/-- Only a report that is allowed shows an access. -/
theorem accessed_mem_ofStep {t u : TxnId} {op : Operation} {stage stage' : Stage}
    {access : Access} (h : accessed u access ∈ ofStep t op stage stage') :
    u = t ∧ (∃ plan, stage = .report access plan) ∧ ∃ plan, stage' = .act plan := by
  unfold ofStep at h
  split at h
  · rename_i access' plan plan'
    obtain ⟨rfl, rfl⟩ : u = t ∧ access = access' := by simpa using h
    exact ⟨rfl, ⟨plan, rfl⟩, ⟨plan', rfl⟩⟩
  · exact absurd h (by simp)
  · exact absurd h (by simp)

theorem accessed_not_mem_ofParticipantStep {t u : TxnId} {call : ParticipantCall}
    {stage stage' : ParticipantStage} {access : Access} :
    accessed u access ∉ ofParticipantStep t call stage stage' := by
  unfold ofParticipantStep
  split <;> simp

end Event

namespace Traffic

variable {ρo ρn β : Type}

/-- Whether a transaction may begin a call. -/
def isFree (w : Traffic ρo ρn β) (t : TxnId) : Bool :=
  w.store.register.txns.contains t && !w.calls.contains t

/-- Whether a participant call of the transaction is under way. -/
def isParticipating (w : Traffic ρo ρn β) (t : TxnId) : Bool :=
  match w.calls.get? t with
  | some (.participation _ _) => true
  | _ => false

variable [Reporter ρo ObjectId] [Reporter ρn NameKey] [Backend β]

/-- One step of an operation. -/
def proceedOperation (t : TxnId) (op : Operation) (stage : Stage) (w : Traffic ρo ρn β) :
    Traffic ρo ρn β :=
  let (stage', store) := w.store.step t stage
  { store
    calls := w.calls.change t (Call.ofStage op stage')
    log := w.log ++ Event.ofStep t op stage stage' }

/-- One step of a participant call. -/
def proceedParticipation (t : TxnId) (call : ParticipantCall) (stage : ParticipantStage)
    (w : Traffic ρo ρn β) : Traffic ρo ρn β :=
  let (stage', store) := w.store.participantStep t stage
  { store
    calls := w.calls.change t (Call.ofParticipantStage call stage')
    log := w.log ++ Event.ofParticipantStep t call stage stage' }

/-- Carries an action out; one that is not possible now does nothing. -/
def perform (w : Traffic ρo ρn β) : StoreAction → Traffic ρo ρn β
  | .begin t seniority lifetime =>
    if w.store.register.txns.contains t then w
    else { w with store := w.store.begin t seniority lifetime }
  | .operate t op =>
    if w.isFree t then
      let (stage, store) := w.store.start t op
      { w with store, calls := w.calls.insert t (.operation op stage) }
    else w
  | .participate t call =>
    if w.isFree t then { w with calls := w.calls.insert t (.participation call (.enter call)) }
    else w
  | .proceed t =>
    match w.calls.get? t with
    | none => w
    | some (.operation op stage) =>
      if w.store.canStep t stage then w.proceedOperation t op stage else w
    | some (.participation call stage) =>
      if 0 < stage.stepsLeft then w.proceedParticipation t call stage else w
  | .cancel t cause =>
    if w.store.register.txns.contains t && !w.isParticipating t then
      { w with store := (w.store.updateTxn t (·.abort cause)).2 }
    else w
  | .wound t reason =>
    if w.store.register.txns.contains t then
      { w with store := (w.store.updateTxn t (·.wound reason)).2 }
    else w
  | .describe t subject text => { w with store := w.store.describe t subject text }
  | .tick n => { w with store := w.store.tick n }
  | .shutdown => { w with store := w.store.shutdown.2 }

/-- Carries actions out one after another. -/
def run (actions : List StoreAction) (w : Traffic ρo ρn β) : Traffic ρo ρn β :=
  actions.foldl perform w

theorem run_cons (a : StoreAction) (actions : List StoreAction) (w : Traffic ρo ρn β) :
    w.run (a :: actions) = (w.perform a).run actions := rfl

theorem run_append (actions actions' : List StoreAction) (w : Traffic ρo ρn β) :
    w.run (actions ++ actions') = (w.run actions).run actions' :=
  List.foldl_append

theorem run_concat (actions : List StoreAction) (a : StoreAction) (w : Traffic ρo ρn β) :
    w.run (actions ++ [a]) = (w.run actions).perform a := by
  simp [run]

theorem run_induction {P : Traffic ρo ρn β → Prop} {w : Traffic ρo ρn β} (h : P w)
    (hstep : ∀ w a, P w → P (w.perform a)) (actions : List StoreAction) : P (w.run actions) := by
  induction actions generalizing w with
  | nil => exact h
  | cons a rest ih => exact ih (hstep w a h)

end Traffic

end ObjectStore
