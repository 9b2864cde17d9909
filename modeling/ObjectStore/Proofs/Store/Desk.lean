/-
Runs in which calls take turns.

A desk serves one call at a time.  A data operation is on its way alone until it ends or has to wait
for a lock; meanwhile nothing else happens but that time passes and that transactions begin.  While
it waits anything may happen, to its own transaction too: other operations of it, participant calls,
cancellations and wounds.  A participant call never waits, and is served in one piece.

A transaction may have several operations waiting, so an operation is known by a number of its own.
-/
import ObjectStore.Proofs.Store.Participation

namespace ObjectStore

/-- A data operation that has been called and has not ended. -/
structure Errand where
  t : TxnId
  op : Operation
  /-- Where the transaction stood when the operation was called. -/
  before : TxnState
  stage : Stage

/-- What is seen at a desk. -/
inductive DeskEvent where
  /-- An operation has ended, that was called when the transaction stood where `before` says. -/
  | answered (t : TxnId) (op : Operation) (before : TxnState) (result : Except StoreError Reply)
  | participated (t : TxnId) (call : ParticipantCall) (result : Except StoreError Reply)

/-- What may happen next at a desk. -/
inductive DeskAction where
  /-- A transaction begins; its number has not been used before. -/
  | begin (t : TxnId) (seniority : Seniority) (lifetime : Nat)
  /-- An operation of a transaction is called. -/
  | operate (number : Nat) (t : TxnId) (op : Operation)
  /-- An operation that waits is due to go on. -/
  | resume (number : Nat)
  /-- The operation on its way takes a step. -/
  | proceed
  | participate (t : TxnId) (call : ParticipantCall)
  /-- The program aborts a transaction. -/
  | cancel (t : TxnId) (cause : AbortCause)
  /-- A locker of another table asks the transaction to give up. -/
  | wound (t : TxnId) (reason : WoundReason TxnId)
  | describe (t : TxnId) (subject : Subject) (text : String)
  | tick (n : Nat)
  | shutdown

/-- A store, the operation on its way, those that wait, and the log, oldest event first. -/
structure Desk where
  store : LockingStore Memory
  moving : Option (Nat × Errand)
  waiting : FinMap Nat Errand
  log : List DeskEvent

namespace Desk

/-- A desk that nobody has come to yet. -/
def new (shards : Nat) : Desk :=
  ⟨.new (.named Store.objectsSource shards) (.named Store.namesSource shards) .empty, none, ∅, []⟩

/-- Whether no operation is on its way. -/
def isIdle (d : Desk) : Bool := d.moving.isNone

/-- Whether a call on the transaction can be served now. -/
def isServing (d : Desk) (t : TxnId) : Bool := d.isIdle && d.store.register.isKnown t

/-- The desk when the operation on its way has come to a stage. -/
def arrive (number : Nat) (e : Errand) (stage : Stage) (store : LockingStore Memory) (d : Desk) :
    Desk :=
  match stage with
  | .ended result =>
    { d with store, moving := none, log := d.log ++ [.answered e.t e.op e.before result] }
  | .waiting _ _ _ =>
    { d with store, moving := none, waiting := d.waiting.insert number { e with stage } }
  | _ => { d with store, moving := some (number, { e with stage }) }

/-- Carries an action out; one that is not possible now does nothing. -/
def perform (d : Desk) : DeskAction → Desk
  | .begin t seniority lifetime =>
    if d.store.register.isKnown t then d else { d with store := d.store.begin t seniority lifetime }
  | .operate number t op =>
    if d.isServing t && !d.waiting.contains number then
      let (stage, store) := d.store.start t op
      { d with store, moving := some (number, ⟨t, op, d.store.register.stateOf t, stage⟩) }
    else d
  | .resume number =>
    match d.waiting.get? number with
    | none => d
    | some e =>
      if d.isIdle && d.store.canStep e.t e.stage then
        { d with moving := some (number, e), waiting := d.waiting.erase number }
      else d
  | .proceed =>
    match d.moving with
    | none => d
    | some (number, e) =>
      if d.store.canStep e.t e.stage then
        let (stage, store) := d.store.step e.t e.stage
        d.arrive number e stage store
      else d
  | .participate t call =>
    if d.isServing t then
      let (result, store) := d.store.participate t call
      { d with store, log := d.log ++ [.participated t call result] }
    else d
  | .cancel t cause =>
    if d.isServing t then { d with store := (d.store.updateTxn t (·.abort cause)).2 } else d
  | .wound t reason =>
    if d.isServing t then { d with store := (d.store.updateTxn t (·.wound reason)).2 } else d
  | .describe t subject text =>
    if d.isIdle then { d with store := d.store.describe t subject text } else d
  | .tick n => { d with store := d.store.tick n }
  | .shutdown => if d.isIdle then { d with store := d.store.shutdown.2 } else d

/-- Carries actions out one after another. -/
def run (actions : List DeskAction) (d : Desk) : Desk := actions.foldl perform d

theorem run_induction {P : Desk → Prop} {d : Desk} (h : P d)
    (hstep : ∀ d a, P d → P (d.perform a)) (actions : List DeskAction) : P (d.run actions) := by
  induction actions generalizing d with
  | nil => exact h
  | cons a rest ih => exact ih (hstep d a h)

/-! ### What an action can have done -/

/-- What one action may have done. -/
inductive Move (d : Desk) : Desk → Prop where
  | rest : Move d d
  /-- Time passes, a key is described, or the backend is shut down. -/
  | aside {store : LockingStore Memory} (hregister : store.register = d.store.register) :
    Move d { d with store }
  | begins {t : TxnId} {seniority : Seniority} {lifetime : Nat}
    (hnew : d.store.register.isKnown t = false) :
    Move d { d with store := d.store.begin t seniority lifetime }
  | starts {number : Nat} {t : TxnId} {op : Operation} {stage : Stage}
    {store : LockingStore Memory} (hidle : d.moving = none)
    (hknown : d.store.register.isKnown t = true)
    (hstart : d.store.start t op = (stage, store)) :
    Move d
      { d with store, moving := some (number, ⟨t, op, d.store.register.stateOf t, stage⟩) }
  | resumes {number : Nat} {e : Errand} (hwaiting : d.waiting.get? number = some e) :
    Move d { d with moving := some (number, e), waiting := d.waiting.erase number }
  | proceeds {number : Nat} {e : Errand} {stage : Stage} {store : LockingStore Memory}
    (hmoving : d.moving = some (number, e)) (hcan : d.store.canStep e.t e.stage = true)
    (hstep : d.store.step e.t e.stage = (stage, store)) :
    Move d (d.arrive number e stage store)
  | participates {t : TxnId} {call : ParticipantCall} {result : Except StoreError Reply}
    {store : LockingStore Memory} (hidle : d.moving = none)
    (hknown : d.store.register.isKnown t = true)
    (hended : Participated d.store t call result store) :
    Move d { d with store, log := d.log ++ [.participated t call result] }
  /-- A transaction is cancelled or wounded. -/
  | aborts {t : TxnId} {f : Txn → Bool × Txn} (hidle : d.moving = none)
    (hf : ∀ txn, (f txn).2 = txn ∨
      txn.isOpen = true ∧ ∃ cause, (f txn).2 = txn.toAborted cause) :
    Move d { d with store := (d.store.updateTxn t f).2 }

theorem isIdle_iff {d : Desk} : d.isIdle = true ↔ d.moving = none := Option.isNone_iff_eq_none

theorem isServing_iff {d : Desk} {t : TxnId} :
    d.isServing t = true ↔ d.moving = none ∧ d.store.register.isKnown t = true := by
  rw [isServing, Bool.and_eq_true_iff, isIdle_iff]

/-- **Every action is in the list.** -/
theorem move_perform (d : Desk) (a : DeskAction) : d.Move (d.perform a) := by
  cases a with
  | begin t seniority lifetime =>
      simp only [perform]
      split
      · exact .rest
      · rename_i hnew
        exact .begins (Bool.of_not_eq_true hnew)
  | operate number t op =>
      simp only [perform]
      split
      · rename_i hcond
        obtain ⟨hidle, hknown⟩ := isServing_iff.mp (Bool.and_eq_true_iff.mp hcond).1
        exact .starts hidle hknown rfl
      · exact .rest
  | resume number =>
      simp only [perform]
      split
      · exact .rest
      · rename_i e hwaiting
        split
        · exact .resumes hwaiting
        · exact .rest
  | proceed =>
      simp only [perform]
      split
      · exact .rest
      · rename_i number e hmoving
        split
        · rename_i hcan
          exact .proceeds hmoving hcan rfl
        · exact .rest
  | participate t call =>
      simp only [perform]
      split
      · rename_i hserving
        obtain ⟨hidle, hknown⟩ := isServing_iff.mp hserving
        exact .participates hidle hknown (d.store.participated_participate t call)
      · exact .rest
  | cancel t cause =>
      simp only [perform]
      split
      · rename_i hserving
        refine .aborts (f := (·.abort cause)) (isServing_iff.mp hserving).1 fun txn => ?_
        rcases txn.abort_cases cause with ⟨hsame, -⟩ | ⟨hopen, haborted⟩
        · exact Or.inl hsame
        · exact Or.inr ⟨hopen, cause, haborted⟩
      · exact .rest
  | wound t reason =>
      simp only [perform]
      split
      · rename_i hserving
        refine .aborts (f := (·.wound reason)) (isServing_iff.mp hserving).1 fun txn => ?_
        rcases txn.wound_cases reason with hsame | ⟨hactive, haborted⟩
        · exact Or.inl hsame
        · exact Or.inr ⟨Txn.isOpen_of_active hactive, haborted⟩
      · exact .rest
  | describe t subject text =>
      simp only [perform]
      split
      · cases subject with
        | object oid => exact .aside rfl
        | name name => exact .aside rfl
      · exact .rest
  | tick n => exact .aside rfl
  | shutdown =>
      simp only [perform]
      split
      · unfold Store.shutdown
        split
        · exact .rest
        · exact .aside rfl
      · exact .rest

theorem store_arrive (number : Nat) (e : Errand) (stage : Stage) (store : LockingStore Memory)
    (d : Desk) : (d.arrive number e stage store).store = store := by
  unfold arrive
  split <;> rfl

end Desk

/-! ### The statuses -/

namespace Desk

theorem course_of_participated {s s' : LockingStore Memory} {t : TxnId} {call : ParticipantCall}
    {result : Except StoreError Reply} (h : Participated s t call result s')
    (hregular : s.register.Regular) : s.register.Course s'.register := by
  have hlooked := Txn.course_look (hregular.txn t) call s.now
  cases h with
  | refused _ hregister => exact hregister.course hregular hlooked
  | fails _ _ hregister => exact hregister.course hregular hlooked
  | prepares _ _ hregister => exact hregister.course hregular hlooked
  | aborts _ _ hregister => exact hregister.course hregular hlooked
  | commits hcall _ hlook hregister =>
      exact hregister.course hregular
        (hlooked.trans (Txn.course_completeCommit hlooked.regular
          (Or.inl (Txn.state_of_look hlook hcall))))

/-- **Every action moves the statuses along their course.** -/
theorem Move.course {d d' : Desk} (h : d.Move d') (hregular : d.store.register.Regular) :
    d.store.register.Course d'.store.register := by
  cases h with
  | rest => exact .refl hregular
  | aside hregister =>
      rw [hregister]
      exact .refl hregular
  | begins hnew => exact Register.course_start hregular hnew _ _
  | @starts number t op stage store _ _ hstart =>
      obtain ⟨stage', register, hstart', hwounded, -⟩ := Traffic.start_cases d.store t op
      rw [hstart] at hstart'
      cases hstart'
      exact hwounded.course hregular
  | resumes => exact .refl hregular
  | @proceeds number e stage store _ hcan hstep =>
      have hlisted := operationStep_step d.store e.t hcan
      rw [hstep] at hlisted
      rw [store_arrive]
      exact (hlisted.course hregular).1
  | participates _ _ hended => exact course_of_participated hended hregular
  | @aborts t f _ hf =>
      refine Register.course_update (f := f) hregular ?_
      rcases hf (d.store.register.find t) with hsame | ⟨hopen, cause, haborted⟩
      · rw [hsame]
        exact .refl (hregular.txn t)
      · rw [haborted]
        exact Txn.course_toAborted (hregular.txn t) hopen cause

theorem regular_run (shards : Nat) (actions : List DeskAction) :
    ((new shards).run actions).store.register.Regular :=
  run_induction (P := fun d => d.store.register.Regular) Register.regular_empty
    (fun d a h => ((move_perform d a).course h).regular) actions

/-- From one moment of a run to a later one, every status follows its course. -/
theorem course_run {d : Desk} (h : d.store.register.Regular) (actions : List DeskAction) :
    d.store.register.Course (d.run actions).store.register :=
  run_induction (P := fun d' => d.store.register.Course d'.store.register) (.refl h)
    (fun d' a hd' => hd'.trans ((move_perform d' a).course hd'.regular)) actions

end Desk

end ObjectStore
