/-
What one action does to a store that takes locks.

Each invariant of such a store is kept by every action.  To prove it, one does not open the
functions of the store again: `Traffic.move_perform` lists, once and for all, what an action can
have done, and the proof goes through the list.

Statuses are listed as the relation they stand in before and after.  What the backend does is left
open; it is called in `OperationStep.acts` and `ParticipantMove.calls` only.
-/
import ObjectStore.Proofs.Store.Run
import ObjectStore.Proofs.Transaction.Register

namespace ObjectStore

/-- A store that takes locks. -/
abbrev LockingStore (β : Type) := Store (LockingReporter ObjectId) (LockingReporter NameKey) β

/-- A store that takes locks, under many transactions. -/
abbrev LockingTraffic (β : Type) := Traffic (LockingReporter ObjectId) (LockingReporter NameKey) β

variable {β : Type}

/-! ### Operations -/

/-- Where an operation stands after its access has been reported, by the turn of the lock call. -/
inductive Reported (t : TxnId) (state : TxnState) (access : Access) (plan : Plan) :
    LockTurn TxnId → Stage → Prop where
  | allowed : Reported t state access plan .granted (.act plan)
  | waiting (signal : Signal) :
    Reported t state access plan (.waiting signal) (.waiting signal access plan)
  | timedOut (holder : Option TxnId) (cause : AbortCause) :
    Reported t state access plan (.failed (.timeout holder)) (.failing (.aborted t cause))
  /-- The transaction had been aborted before the report. -/
  | late (e : StoreError) (hstate : state ≠ .active) (he : ∀ name, e ≠ .nameNotBound name)
    (hfound : ∀ oid, e ≠ .objectNotFound oid) :
    Reported t state access plan (.failed .notActive) (.failing e)

/-- One step of an operation of `t`, from a stage to a stage. -/
inductive OperationStep [Backend β] (s : LockingStore β) (t : TxnId) :
    Stage → Stage → LockingStore β → Prop where
  | reportsObject {oid : ObjectId} {mode : LockMode} {plan : Plan} {turn : LockTurn TxnId}
    {register : Register} {table : LockTable ObjectId TxnId} {stage' : Stage}
    (hturn : s.objects.table.turn s.now (s.register.find t).deadline t oid mode s.register =
      (turn, register, table))
    (hstage : Reported t (s.register.stateOf t) (.object oid mode) plan turn stage') :
    OperationStep s t (.report (.object oid mode) plan) stage'
      { s with register, objects := { s.objects with table } }
  | reportsName {key : NameKey} {mode : LockMode} {plan : Plan} {turn : LockTurn TxnId}
    {register : Register} {table : LockTable NameKey TxnId} {stage' : Stage}
    (hturn : s.names.table.turn s.now (s.register.find t).deadline t key mode s.register =
      (turn, register, table))
    (hstage : Reported t (s.register.stateOf t) (.name key mode) plan turn stage') :
    OperationStep s t (.report (.name key mode) plan) stage'
      { s with register, names := { s.names with table } }
  | wakes {signal : Signal} {access : Access} {plan : Plan} :
    OperationStep s t (.waiting signal access plan) (.report access plan) s
  | acts {plan : Plan} {stage' : Stage} {backend : β}
    (hact : s.act t plan = (stage', { s with backend })) :
    OperationStep s t (.act plan) stage' { s with backend }
  | fails {e : StoreError} :
    OperationStep s t (.failing e) (.ended (.error e)) (s.noteFailure t e)

namespace OperationStep

variable [Backend β] {s s' : LockingStore β} {t : TxnId} {stage : Stage}

theorem ended_cases {result : Except StoreError Reply}
    (h : OperationStep s t stage (.ended result) s') :
    (∃ plan backend, stage = .act plan ∧ s.act t plan = (.ended result, { s with backend })) ∨
      ∃ e, stage = .failing e ∧ result = .error e := by
  cases h with
  | reportsObject _ hstage => cases hstage
  | reportsName _ hstage => cases hstage
  | acts hact => exact Or.inl ⟨_, _, rfl, hact⟩
  | fails => exact Or.inr ⟨_, rfl, rfl⟩

/-- Only the backend fails to find an object. -/
theorem act_of_notFound {oid : ObjectId}
    (h : OperationStep s t stage (.failing (.objectNotFound oid)) s') :
    ∃ plan backend, stage = .act plan ∧
      s.act t plan = (.failing (.objectNotFound oid), { s with backend }) := by
  have hreported : ∀ {state access plan turn},
      ¬ Reported t state access plan turn (.failing (.objectNotFound oid)) := by
    intro state access plan turn hstage
    cases hstage with
    | late _ _ _ hfound => exact hfound oid rfl
  cases h with
  | reportsObject _ hstage => exact (hreported hstage).elim
  | reportsName _ hstage => exact (hreported hstage).elim
  | acts hact => exact ⟨_, _, rfl, hact⟩

end OperationStep

theorem Store.callThen_backend {ρo ρn α : Type} [Backend β] (s : Store ρo ρn β) (t : TxnId)
    (c : BackendCall α) (next : α → Stage) :
    ∃ backend, (s.callThen t c next).2 = { s with backend } := by
  refine ⟨(Backend.perform c t s.backend).2, ?_⟩
  unfold callThen call
  rcases Backend.perform c t s.backend with ⟨_ | _, _⟩ <;> rfl

theorem Store.act_backend {ρo ρn : Type} [Reporter ρo ObjectId] [Reporter ρn NameKey] [Backend β]
    (s : Store ρo ρn β) (t : TxnId) (plan : Plan) :
    ∃ backend, (s.act t plan).2 = { s with backend } := by
  cases plan with
  | setMany unreported items =>
      cases unreported with
      | nil => exact callThen_backend s t _ _
      | cons oid rest => exact ⟨s.backend, rfl⟩
  | answer result => exact ⟨s.backend, rfl⟩
  | _ => exact callThen_backend s t _ _

/-- A turn of a lock call tells how the operation goes on. -/
theorem reported_of_turn {K : Type} [DecidableEq K] [Hashable K] [Labelled K] {now deadline : Nat}
    {t : TxnId} {key : K} {mode : LockMode} {l : LockTable K TxnId} {r : Register}
    {turn : LockTurn TxnId} {register : Register} {table : LockTable K TxnId}
    (hturn : l.turn now deadline t key mode r = (turn, register, table))
    (reporter : LockingReporter K) (access : Access) (plan : Plan) :
    Reported t (r.stateOf t) access plan turn
      (match turn with
        | .granted => .act plan
        | .waiting signal => .waiting signal access plan
        | .failed e => .failing (reporter.failure register t key e)) := by
  cases LockTable.turn_outcome hturn with
  | inactive hinactive =>
      refine .late _ (Register.stateOf_ne_active hinactive) ?_ ?_
      · intro name
        simp only [LockingReporter.failure]
        split <;> simp
      · intro oid
        simp only [LockingReporter.failure]
        split <;> simp
  | granted => exact .allowed
  | timedOut => exact .timedOut _ _
  | waiting => exact .waiting _

/-- Nobody but who is active is allowed an access. -/
theorem OperationStep.active_of_allowed [Backend β] {s s' : LockingStore β} {t : TxnId}
    {access : Access} {plan plan' : Plan}
    (h : OperationStep s t (.report access plan) (.act plan') s') :
    s.register.stateOf t = .active := by
  have hgranted : ∀ {K : Type} [DecidableEq K] [Hashable K] [Labelled K] {key : K} {mode : LockMode}
      {l table : LockTable K TxnId} {turn : LockTurn TxnId} {register : Register},
      l.turn s.now (s.register.find t).deadline t key mode s.register = (turn, register, table) →
      Reported t (s.register.stateOf t) access plan turn (.act plan') →
      s.register.stateOf t = .active := by
    intro K _ _ _ key mode l table turn register hturn hstage
    cases hstage
    cases LockTable.turn_outcome hturn with
    | granted hactive => exact Txn.isActive_iff.mp hactive
  cases h with
  | reportsObject hturn hstage => exact hgranted hturn hstage
  | reportsName hturn hstage => exact hgranted hturn hstage

theorem operationStep_step [Backend β] (s : LockingStore β) (t : TxnId) {stage : Stage}
    (hcan : s.canStep t stage = true) :
    OperationStep s t stage (s.step t stage).1 (s.step t stage).2 := by
  cases stage with
  | report access plan =>
      cases access with
      | object oid mode =>
          rcases hturn : s.objects.table.turn s.now (s.register.find t).deadline t oid mode s.register
            with ⟨turn, register, table⟩
          have hstage := reported_of_turn hturn { s.objects with table } (.object oid mode) plan
          simp only [Store.step, Store.report, Reporter.report, LockingReporter.report, hturn]
          cases turn with
          | granted => exact .reportsObject hturn hstage
          | waiting signal => exact .reportsObject hturn hstage
          | failed e => exact .reportsObject hturn hstage
      | name key mode =>
          rcases hturn : s.names.table.turn s.now (s.register.find t).deadline t key mode s.register
            with ⟨turn, register, table⟩
          have hstage := reported_of_turn hturn { s.names with table } (.name key mode) plan
          simp only [Store.step, Store.report, Reporter.report, LockingReporter.report, hturn]
          cases turn with
          | granted => exact .reportsName hturn hstage
          | waiting signal => exact .reportsName hturn hstage
          | failed e => exact .reportsName hturn hstage
  | waiting signal access plan =>
      have hdue : s.isDue t signal access = true := hcan
      simp only [Store.step, if_pos hdue]
      exact .wakes
  | act plan =>
      obtain ⟨backend, hbackend⟩ := s.act_backend t plan
      have hact : s.act t plan = ((s.act t plan).1, { s with backend }) := by
        rw [← hbackend]
      simp only [Store.step, hbackend]
      exact .acts hact
  | failing e => exact .fails
  | ended result => exact absurd hcan (by simp [Store.canStep])

/-! ### Participant calls -/

/-- Whether a participant call is at a stage that no open transaction comes to. -/
def ParticipantStage.isClosing : ParticipantStage → Bool
  | .backend .abort => true
  | .releaseObjects _ => true
  | .releaseNames _ => true
  | _ => false

/-- One step of a participant call on `t`, from a stage to a stage. -/
inductive ParticipantMove [Backend β] (s : LockingStore β) (t : TxnId) :
    ParticipantStage → ParticipantStage → LockingStore β → Prop where
  /-- The call comes too late, or its transaction has run out of time. -/
  | refused {call : ParticipantCall} {e : StoreError} {register : Register}
    (hwounded : s.register.Wounded register) :
    ParticipantMove s t (.enter call) (.failing e) { s with register }
  | prepares {call : ParticipantCall} {register : Register}
    (hcall : call = .prepare ∨ call = .prepareAndCommit)
    (hactive : s.register.stateOf t = .active) (hprepared : register.stateOf t = .prepared)
    (hother : ∀ u, t ≠ u → register.find u = s.register.find u)
    (hknown : ∀ u, s.register.isKnown u = true → register.isKnown u = true) :
    ParticipantMove s t (.enter call) (.backend call) { s with register }
  | entersCommit (hprepared : s.register.stateOf t = .prepared) :
    ParticipantMove s t (.enter .commit) (.backend .commit) s
  | entersAbort {register : Register} (hbefore : s.register.stateOf t ≠ .committed)
    (haborted : register.stateOf t = .aborted)
    (hother : ∀ u, t ≠ u → register.find u = s.register.find u)
    (hknown : ∀ u, s.register.isKnown u = true → register.isKnown u = true) :
    ParticipantMove s t (.enter .abort) (.backend .abort) { s with register }
  | calls {call : ParticipantCall} {stage' : ParticipantStage} {backend : β}
    (hcalled : s.callBackend t call = (stage', { s with backend })) :
    ParticipantMove s t (.backend call) stage' { s with backend }
  | completes {reply : Reply} {register : Register}
    (hcommitted : register.stateOf t = .committed)
    (hother : ∀ u, t ≠ u → register.find u = s.register.find u)
    (hknown : ∀ u, s.register.isKnown u = true → register.isKnown u = true) :
    ParticipantMove s t (.committed reply) (.releaseObjects (.ok reply)) { s with register }
  | releasesObjects {result : Except StoreError Reply} :
    ParticipantMove s t (.releaseObjects result) (.releaseNames result)
      { s with objects := s.objects.finish t }
  | releasesNames {result : Except StoreError Reply} :
    ParticipantMove s t (.releaseNames result) (.ofResult result)
      { s with names := s.names.finish t }
  | fails {e : StoreError} :
    ParticipantMove s t (.failing e) (.ended (.error e)) (s.noteFailure t e)

theorem Store.callBackend_backend {ρo ρn : Type} [Backend β] (s : Store ρo ρn β) (t : TxnId)
    (call : ParticipantCall) : ∃ backend, (s.callBackend t call).2 = { s with backend } := by
  cases call with
  | prepare =>
      refine ⟨(Backend.perform .prepare t s.backend).2, ?_⟩
      unfold callBackend Store.call
      rcases Backend.perform .prepare t s.backend with ⟨_ | _ | _, _⟩ <;> rfl
  | commit =>
      refine ⟨(Backend.perform .commit t s.backend).2, ?_⟩
      unfold callBackend Store.call
      rcases Backend.perform .commit t s.backend with ⟨_ | _, _⟩ <;> rfl
  | prepareAndCommit =>
      refine ⟨(Backend.perform .prepareAndCommit t s.backend).2, ?_⟩
      unfold callBackend Store.call
      rcases Backend.perform .prepareAndCommit t s.backend with ⟨_ | _, _⟩ <;> rfl
  | abort => exact ⟨(Backend.perform .abort t s.backend).2, rfl⟩

/-- A change of one transaction is a wound if it is one there. -/
theorem Register.wounded_update {r : Register} {t : TxnId} {α : Type} {f : Txn → α × Txn}
    (h : (f (r.find t)).2 = r.find t ∨
      r.stateOf t = .active ∧ ∃ cause, (f (r.find t)).2 = (r.find t).toAborted cause) :
    r.Wounded (r.update t f).2 where
  find := by
    intro u
    by_cases hu : t = u
    · rw [← hu, find_update_self]
      exact h
    · exact Or.inl (find_update_of_ne hu)
  known := fun _ hknown => isKnown_update.mpr (Or.inr hknown)

theorem participantMove_enter [Backend β] (s : LockingStore β) (t : TxnId)
    (call : ParticipantCall) :
    ParticipantMove s t (.enter call) (s.participantStep t (.enter call)).1
      (s.participantStep t (.enter call)).2 := by
  have hother : ∀ (f : Txn → Except StoreError Unit × Txn) u, t ≠ u →
      (s.register.update t f).2.find u = s.register.find u :=
    fun f u hu => Register.find_update_of_ne hu
  have hknown : ∀ (f : Txn → Except StoreError Unit × Txn) u, s.register.isKnown u = true →
      (s.register.update t f).2.isKnown u = true :=
    fun f u hu => Register.isKnown_update.mpr (Or.inr hu)
  have hprepare : call = .prepare ∨ call = .prepareAndCommit →
      ParticipantMove s t (.enter call) (s.participantStep t (.enter call)).1
        (s.participantStep t (.enter call)).2 := by
    intro hcall
    have henter : s.enter t call = s.updateTxn t (·.beginPrepare s.now) := by
      rcases hcall with rfl | rfl <;> rfl
    have hfind : (s.register.update t (·.beginPrepare s.now)).2.find t =
        ((s.register.find t).beginPrepare s.now).2 := Register.find_update_self
    simp only [Store.participantStep, henter, Store.updateTxn]
    rcases Txn.beginPrepare_cases s.now (s.register.find t) with
      ⟨hok, hactive⟩ | ⟨e, -, herror⟩ | ⟨hlate, hactive⟩
    · have hanswer : (s.register.update t (·.beginPrepare s.now)).1 = .ok () := congrArg Prod.fst hok
      rw [hanswer]
      refine .prepares hcall hactive ?_ (hother _) (hknown _)
      rw [Register.stateOf, hfind, hok]
    · have hanswer : (s.register.update t (·.beginPrepare s.now)).1 = .error e :=
        congrArg Prod.fst herror
      rw [hanswer]
      exact .refused (Register.wounded_update (Or.inl (congrArg Prod.snd herror)))
    · have hanswer : (s.register.update t (·.beginPrepare s.now)).1 =
          .error (.aborted (s.register.find t).id .timeout) := congrArg Prod.fst hlate
      rw [hanswer]
      exact .refused (Register.wounded_update (Or.inr ⟨hactive, _, congrArg Prod.snd hlate⟩))
  cases call with
  | prepare => exact hprepare (Or.inl rfl)
  | prepareAndCommit => exact hprepare (Or.inr rfl)
  | commit =>
      simp only [Store.participantStep, Store.enter]
      cases hcheck : (s.register.find t).checkPrepared with
      | ok _ => exact .entersCommit (Txn.state_of_checkPrepared hcheck)
      | error e => exact .refused (Register.Wounded.refl _)
  | abort =>
      have hfind : (s.register.update t (·.beginParticipantAbort)).2.find t =
          (s.register.find t).beginParticipantAbort.2 := Register.find_update_self
      simp only [Store.participantStep, Store.enter, Store.updateTxn]
      rcases Txn.beginParticipantAbort_cases (t := s.register.find t) with
        ⟨hok, haborted, hbefore⟩ | ⟨e, -, herror⟩
      · have hanswer : (s.register.update t (·.beginParticipantAbort)).1 = .ok () := hok
        rw [hanswer]
        refine .entersAbort hbefore ?_ (hother _) (hknown _)
        rw [Register.stateOf, hfind]
        exact haborted
      · have hanswer : (s.register.update t (·.beginParticipantAbort)).1 = .error e :=
          congrArg Prod.fst herror
        rw [hanswer]
        exact .refused (Register.wounded_update (Or.inl (congrArg Prod.snd herror)))

theorem participantMove_step [Backend β] (s : LockingStore β) (t : TxnId)
    {stage : ParticipantStage} (hleft : 0 < stage.stepsLeft) :
    ParticipantMove s t stage (s.participantStep t stage).1 (s.participantStep t stage).2 := by
  cases stage with
  | enter call => exact participantMove_enter s t call
  | backend call =>
      obtain ⟨backend, hbackend⟩ := s.callBackend_backend t call
      have hcalled : s.callBackend t call = ((s.callBackend t call).1, { s with backend }) := by
        rw [← hbackend]
      simp only [Store.participantStep, hbackend]
      exact .calls hcalled
  | committed reply =>
      show ParticipantMove s t _ (.releaseObjects (.ok reply))
        { s with register := (s.register.update t fun txn => ((), txn.completeCommit)).2 }
      refine .completes ?_ (fun u hu => Register.find_update_of_ne hu)
        (fun u hu => Register.isKnown_update.mpr (Or.inr hu))
      rw [Register.stateOf, Register.find_update_self]
      rfl
  | releaseObjects result => exact .releasesObjects
  | releaseNames result => exact .releasesNames
  | failing e => exact .fails
  | ended result => exact absurd hleft (by simp [ParticipantStage.stepsLeft])

/-! ### Actions -/

namespace Traffic

/-- A store that takes locks and is not used yet. -/
def new (shards : Nat) (backend : β) : LockingTraffic β :=
  ⟨.new (.named Store.objectsSource shards) (.named Store.namesSource shards) backend, ∅, []⟩

/-- What a transaction may have done itself. -/
inductive OwnMove [Backend β] (w : LockingTraffic β) (t : TxnId) : LockingTraffic β → Prop where
  | begins {seniority : Seniority} {lifetime : Nat} (hnew : w.store.register.isKnown t = false) :
    OwnMove w t { w with store := w.store.begin t seniority lifetime }
  /-- An operation begins.  If it is refused it is about to fail. -/
  | starts {op : Operation} {stage : Stage} {register : Register}
    (hfree : w.calls.get? t = none) (hknown : w.store.register.isKnown t = true)
    (hwounded : w.store.register.Wounded register)
    (hstage : stage = op.firstStage ∧ register.stateOf t = .active ∨
      ∃ e, stage = .failing e ∧ ∀ name, e ≠ .nameNotBound name)
    (hstart : w.store.start t op = (stage, { w.store with register })) :
    OwnMove w t
      { w with
        store := { w.store with register }
        calls := w.calls.insert t (.operation op stage) }
  | participates {call : ParticipantCall} (hfree : w.calls.get? t = none)
    (hknown : w.store.register.isKnown t = true) :
    OwnMove w t { w with calls := w.calls.insert t (.participation call (.enter call)) }
  | operation {op : Operation} {stage stage' : Stage} {store : LockingStore β}
    (hcall : w.calls.get? t = some (.operation op stage))
    (hstep : OperationStep w.store t stage stage' store)
    (htaken : w.store.step t stage = (stage', store)) :
    OwnMove w t
      { store
        calls := w.calls.change t (Call.ofStage op stage')
        log := w.log ++ Event.ofStep t op stage stage' }
  | participation {call : ParticipantCall} {stage stage' : ParticipantStage}
    {store : LockingStore β} (hcall : w.calls.get? t = some (.participation call stage))
    (hstep : ParticipantMove w.store t stage stage' store)
    (htaken : w.store.participantStep t stage = (stage', store)) :
    OwnMove w t
      { store
        calls := w.calls.change t (Call.ofParticipantStage call stage')
        log := w.log ++ Event.ofParticipantStep t call stage stage' }

/-- What one action may have done. -/
inductive Move [Backend β] (w : LockingTraffic β) : LockingTraffic β → Prop where
  | rest : Move w w
  /-- Time passes, or a key is described. -/
  | aside {now : Nat} {objects : LockingReporter ObjectId} {names : LockingReporter NameKey}
    (hobjects : objects.table = w.store.objects.table)
    (hnames : names.table = w.store.names.table) :
    Move w { w with store := { w.store with now, objects, names } }
  /-- A transaction is cancelled, unless a participant call is under way, or is wounded. -/
  | aborts {t : TxnId} {register : Register}
    (hself : register.find t = w.store.register.find t ∨
      w.store.register.isOpen t = true ∧
        (w.store.register.stateOf t = .active ∨ w.isParticipating t = false) ∧
          ∃ cause, register.find t = (w.store.register.find t).toAborted cause)
    (hother : ∀ u, t ≠ u → register.find u = w.store.register.find u)
    (hknown : ∀ u, w.store.register.isKnown u = true → register.isKnown u = true) :
    Move w { w with store := { w.store with register } }
  | own {t : TxnId} {w' : LockingTraffic β} (h : OwnMove w t w') : Move w w'
  /-- The backend is shut down. -/
  | shutsDown {isShutDown : Bool} (hopen : w.store.isShutDown = false) :
    Move w
      { w with
        store :=
          { w.store with
            isShutDown
            backend := (Backend.perform .shutdown ⟨0⟩ w.store.backend).2 } }

/-- Only an abort goes from the backend straight to the release of locks. -/
theorem isClosing_callBackend {ρo ρn : Type} [Backend β] {s s' : Store ρo ρn β} {t : TxnId}
    {call : ParticipantCall} {stage' : ParticipantStage}
    (h : s.callBackend t call = (stage', s')) (hclosing : stage'.isClosing = true) :
    call = .abort := by
  cases call with
  | prepare =>
      unfold Store.callBackend at h
      simp only at h
      split at h <;> cases h <;> exact absurd hclosing (by simp [ParticipantStage.isClosing])
  | commit =>
      unfold Store.callBackend at h
      simp only at h
      split at h <;> cases h <;> exact absurd hclosing (by simp [ParticipantStage.isClosing])
  | prepareAndCommit =>
      unfold Store.callBackend at h
      simp only at h
      split at h <;> cases h <;> exact absurd hclosing (by simp [ParticipantStage.isClosing])
  | abort => rfl

/-- A closing stage comes after another one, or after the transaction has been closed. -/
theorem closed_of_participantMove [Backend β] {s s' : LockingStore β} {t : TxnId}
    {stage stage' : ParticipantStage} (h : ParticipantMove s t stage stage' s')
    (hclosed : stage.isClosing = true → s'.register.isOpen t = false)
    (hclosing : stage'.isClosing = true) : s'.register.isOpen t = false := by
  cases h with
  | refused => exact absurd hclosing (by simp [ParticipantStage.isClosing])
  | prepares hkind =>
      rcases hkind with rfl | rfl <;> exact absurd hclosing (by simp [ParticipantStage.isClosing])
  | entersCommit => exact absurd hclosing (by simp [ParticipantStage.isClosing])
  | entersAbort _ haborted => exact Register.isOpen_of_aborted haborted
  | calls hcalled =>
      rw [isClosing_callBackend hcalled hclosing] at hclosed
      exact hclosed rfl
  | completes hcommitted => exact Register.isOpen_of_committed hcommitted
  | releasesObjects => exact hclosed rfl
  | releasesNames => exact hclosed rfl
  | fails => exact absurd hclosing (by simp [ParticipantStage.isClosing])

/-- Before its first stage an operation looks at the status of its transaction, and may be refused. -/
theorem start_cases [Backend β] (s : LockingStore β) (t : TxnId) (op : Operation) :
    ∃ stage register, s.start t op = (stage, { s with register }) ∧ s.register.Wounded register ∧
      (stage = op.firstStage ∧ register.stateOf t = .active ∨
        ∃ e, stage = .failing e ∧ ∀ name, e ≠ .nameNotBound name) := by
  unfold Store.start
  split
  · rename_i e hrefusal
    refine ⟨.failing e, s.register, rfl, .refl _, Or.inr ⟨e, rfl, ?_⟩⟩
    intro name hname
    rw [hname] at hrefusal
    cases op <;> simp [Operation.refusal?] at hrefusal
  · have hfind : (s.register.update t (·.checkActive s.now)).2.find t =
        ((s.register.find t).checkActive s.now).2 := Register.find_update_self
    simp only [Store.checkActive, Store.updateTxn]
    rcases Txn.checkActive_cases s.now (s.register.find t) with
      ⟨hok, hactive⟩ | ⟨cause, herror⟩ | ⟨hlate, hactive⟩
    · have hanswer : (s.register.update t (·.checkActive s.now)).1 = .ok () :=
        congrArg Prod.fst hok
      rw [hanswer]
      refine ⟨_, _, rfl, Register.wounded_update (Or.inl (congrArg Prod.snd hok)), Or.inl ⟨rfl, ?_⟩⟩
      rw [Register.stateOf, hfind, hok]
      exact hactive
    · have hanswer : (s.register.update t (·.checkActive s.now)).1 =
          .error (.notActive (s.register.find t).id cause) := congrArg Prod.fst herror
      rw [hanswer]
      exact ⟨_, _, rfl, Register.wounded_update (Or.inl (congrArg Prod.snd herror)),
        Or.inr ⟨_, rfl, by simp⟩⟩
    · have hanswer : (s.register.update t (·.checkActive s.now)).1 =
          .error (.aborted (s.register.find t).id .timeout) := congrArg Prod.fst hlate
      rw [hanswer]
      exact ⟨_, _, rfl, Register.wounded_update (Or.inr ⟨hactive, _, congrArg Prod.snd hlate⟩),
        Or.inr ⟨_, rfl, by simp⟩⟩

/-- Whoever may begin a call has begun, and has no other. -/
theorem isFree_iff {ρo ρn : Type} {w : Traffic ρo ρn β} {t : TxnId} :
    w.isFree t = true ↔ w.store.register.isKnown t = true ∧ w.calls.get? t = none := by
  constructor
  · intro h
    obtain ⟨hknown, hcall⟩ := Bool.and_eq_true_iff.mp h
    exact ⟨hknown, by simpa [FinMap.contains] using hcall⟩
  · rintro ⟨hknown, hnone⟩
    exact Bool.and_eq_true_iff.mpr ⟨hknown, by simp [FinMap.contains, hnone]⟩

/-- A change of the status of a transaction by which it stays as it is, or is aborted. -/
theorem move_update [Backend β] {w : LockingTraffic β} {t : TxnId} {α : Type} {f : Txn → α × Txn}
    (h : (f (w.store.register.find t)).2 = w.store.register.find t ∨
      w.store.register.isOpen t = true ∧
        (w.store.register.stateOf t = .active ∨ w.isParticipating t = false) ∧
          ∃ cause, (f (w.store.register.find t)).2 = (w.store.register.find t).toAborted cause) :
    w.Move { w with store := { w.store with register := (w.store.register.update t f).2 } } := by
  refine .aborts (t := t) ?_ (fun u hu => Register.find_update_of_ne hu)
    (fun u hu => Register.isKnown_update.mpr (Or.inr hu))
  rwa [Register.find_update_self]

/-- **Every action is in the list.** -/
theorem move_perform [Backend β] (w : LockingTraffic β) (a : StoreAction) :
    w.Move (w.perform a) := by
  unfold perform
  cases a with
  | begin t seniority lifetime =>
      simp only
      split
      · exact .rest
      · rename_i hnew
        exact .own (.begins (Bool.of_not_eq_true hnew))
  | operate t op =>
      simp only
      split
      · rename_i hfree
        obtain ⟨hknown, hnone⟩ := isFree_iff.mp hfree
        obtain ⟨stage, register, hstart, hwounded, hstage⟩ := start_cases w.store t op
        rw [hstart]
        exact .own (.starts hnone hknown hwounded hstage hstart)
      · exact .rest
  | participate t call =>
      simp only
      split
      · rename_i hfree
        obtain ⟨hknown, hnone⟩ := isFree_iff.mp hfree
        exact .own (.participates hnone hknown)
      · exact .rest
  | proceed t =>
      simp only
      split
      · exact .rest
      · rename_i op stage hcall
        split
        · rename_i hcan
          exact .own (.operation hcall (operationStep_step w.store t hcan) rfl)
        · exact .rest
      · rename_i call stage hcall
        split
        · rename_i hleft
          exact .own (.participation hcall (participantMove_step w.store t hleft) rfl)
        · exact .rest
  | cancel t cause =>
      simp only
      split
      · rename_i hcond
        obtain ⟨-, hquiet⟩ := Bool.and_eq_true_iff.mp hcond
        refine move_update (f := (·.abort cause)) ?_
        rcases (w.store.register.find t).abort_cases cause with ⟨hsame, -⟩ | ⟨hopen, haborted⟩
        · exact Or.inl hsame
        · exact Or.inr ⟨hopen, Or.inr (by simpa using hquiet), cause, haborted⟩
      · exact .rest
  | wound t reason =>
      simp only
      split
      · refine move_update (f := (·.wound reason)) ?_
        rcases (w.store.register.find t).wound_cases reason with hsame | ⟨hactive, haborted⟩
        · exact Or.inl hsame
        · exact Or.inr ⟨Register.isOpen_iff.mpr (Or.inl hactive), Or.inl hactive, haborted⟩
      · exact .rest
  | describe t subject text =>
      cases subject with
      | object oid => exact .aside rfl rfl
      | name name => exact .aside rfl rfl
  | tick n => exact .aside rfl rfl
  | shutdown =>
      unfold Store.shutdown
      simp only
      split
      · exact .rest
      · rename_i hopen
        exact .shutsDown (Bool.of_not_eq_true hopen)

theorem after_of_operationStep [Backend β] {s s' : LockingStore β} {t : TxnId}
    {stage stage' : Stage} (h : OperationStep s t stage stage' s') :
    s.register.After s'.register := by
  cases h with
  | reportsObject hturn => exact (Register.wounded_turn hturn).after
  | reportsName hturn => exact (Register.wounded_turn hturn).after
  | wakes => exact .refl _
  | acts => exact .refl _
  | fails => exact Register.after_noteFailure _ _ _

theorem after_of_participantMove [Backend β] {s s' : LockingStore β} {t : TxnId}
    {stage stage' : ParticipantStage} (h : ParticipantMove s t stage stage' s') :
    s.register.After s'.register := by
  cases h with
  | refused hwounded => exact hwounded.after
  | prepares _ hactive _ hother hknown =>
      refine .of_ne t (fun _ => Register.isOpen_iff.mpr (Or.inl hactive)) ?_ hother hknown
      intro hstate
      rw [hactive] at hstate
      exact absurd hstate (by simp)
  | entersCommit => exact .refl _
  | entersAbort hbefore haborted hother hknown =>
      exact .of_ne t (fun hopen => absurd hopen (by simp [Register.isOpen_of_aborted haborted]))
        (fun hstate => absurd hstate hbefore) hother hknown
  | calls => exact .refl _
  | completes hcommitted hother hknown =>
      exact .of_ne t (fun hopen => absurd hopen (by simp [Register.isOpen_of_committed hcommitted]))
        (fun _ => hcommitted) hother hknown
  | releasesObjects => exact .refl _
  | releasesNames => exact .refl _
  | fails => exact Register.after_noteFailure _ _ _

theorem after_of_ownMove [Backend β] {w w' : LockingTraffic β} {t : TxnId} (h : w.OwnMove t w') :
    w.store.register.After w'.store.register := by
  cases h with
  | begins hnew => exact Register.after_start hnew _ _
  | starts _ _ hwounded => exact hwounded.after
  | participates => exact .refl _
  | operation _ hstep => exact after_of_operationStep hstep
  | participation _ hstep => exact after_of_participantMove hstep

/-- **Nobody who has ended is opened again.** -/
theorem after_of_move [Backend β] {w w' : LockingTraffic β} (h : w.Move w') :
    w.store.register.After w'.store.register := by
  cases h with
  | rest => exact .refl _
  | aside => exact .refl _
  | aborts hself hother hknown =>
      refine .of_ne _ ?_ ?_ hother hknown
      · intro hopen
        rcases hself with hsame | ⟨hwas, -⟩
        · rwa [Register.isOpen, hsame] at hopen
        · exact hwas
      · intro hstate
        rcases hself with hsame | ⟨hwas, -⟩
        · rwa [Register.stateOf, hsame]
        · rw [Register.isOpen_of_committed hstate] at hwas
          exact absurd hwas (by simp)
  | own h => exact after_of_ownMove h
  | shutsDown => exact .refl _

theorem after_run [Backend β] (actions : List StoreAction) :
    ∀ w : LockingTraffic β, w.store.register.After (w.run actions).store.register := by
  induction actions with
  | nil => exact fun w => .refl _
  | cons a rest ih => exact fun w => (after_of_move (move_perform w a)).trans (ih (w.perform a))

/-- An action is seen to do one thing at most. -/
theorem log_perform [Backend β] (w : LockingTraffic β) (a : StoreAction) :
    (w.perform a).log = w.log ∨ ∃ e, (w.perform a).log = w.log ++ [e] := by
  have hmove := move_perform w a
  generalize w.perform a = w' at hmove
  cases hmove with
  | own h =>
      cases h with
      | operation =>
          simp only [Event.ofStep]
          split
          · exact Or.inr ⟨_, rfl⟩
          · exact Or.inr ⟨_, rfl⟩
          · exact Or.inl (List.append_nil _)
      | participation =>
          simp only [Event.ofParticipantStep]
          split
          · exact Or.inr ⟨_, rfl⟩
          · exact Or.inr ⟨_, rfl⟩
          · exact Or.inl (List.append_nil _)
      | _ => exact Or.inl rfl
  | _ => exact Or.inl rfl

end Traffic

end ObjectStore
