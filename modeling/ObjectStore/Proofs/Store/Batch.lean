/-
What a batch of writes leaves behind.

A batch locks all of its objects before it writes the first.  Then it writes one after the other, and
comes to a halt at the first whose number has not been given out.  So a batch that succeeds has written
all of its members, and holds the lock on each; and a batch that fails has written nothing, unless it
fails for want of an object that is not its first, and then it has written those before it.  Such a
failure does not abort the transaction, which may well commit what has been written.

`Batched` is the invariant from the beginning of a batch to its answer, while other transactions go on.
-/
import ObjectStore.Proofs.Backend.Closed
import ObjectStore.Proofs.Store.Reread

namespace ObjectStore

theorem Plan.eq_setMany {plan : Plan} {oids : List ObjectId} {datas : List Bytes}
    (hserves : plan.Serves (.setMany oids datas)) (hfits : plan.Fits (.setMany oids datas)) :
    ∃ unreported, plan = .setMany unreported (oids.zip datas) := by
  cases plan with
  | setMany unreported items =>
      obtain ⟨oids', datas', heq, rfl⟩ := hserves
      cases heq
      exact ⟨unreported, rfl⟩
  | get oid =>
      obtain ⟨forUpdate, heq⟩ := hserves
      cases heq
  | confirm scan locked => cases scan <;> cases hfits
  | answer result =>
      rcases hfits with ⟨name, heq, -⟩ | ⟨name, oid, heq, -⟩ | ⟨after, heq⟩
      · cases heq
      · cases heq
      · cases heq
  | create | mark | set | remove | classId | classInfo => cases hserves
  | getBinding | setBinding | removeBinding | beginScan | nextObject => cases hfits

theorem Store.paired_of_start {s : LockingStore Memory} {t : TxnId} {oids : List ObjectId}
    {datas : List Bytes}
    (h : ∀ e, (s.start t (.setMany oids datas)).1.outcome? ≠ some (.error e)) :
    oids.length = datas.length := by
  by_contra hlengths
  have hrefused : (Operation.setMany oids datas).refusal? =
      some (.invalidArgument s!"{oids.length} object ids but {datas.length} data items") :=
    if_neg hlengths
  unfold start at h
  rw [hrefused] at h
  exact h _ rfl

/-! ### A batch under way -/

/-- What a batch at a stage has made of the writes `base` that the transaction had before, and why it
may have failed. -/
structure Batched (t : TxnId) (oids : List ObjectId) (datas : List Bytes) (base : WriteSet)
    (stage : Stage) (m : Memory) : Prop where
  writes : m.writes t =
    if m.isShutDown then .empty else base.recordAll (stage.writes (.setMany oids datas))
  /-- Nothing is missing but what was asked for. -/
  missing : ∀ oid, stage.outcome? = some (.error (.objectNotFound oid)) →
    oid ∈ (oids.zip datas).map Prod.fst
  /-- A batch with an object or a piece of data too many has been refused. -/
  paired : (∀ e, stage.outcome? ≠ some (.error e)) → oids.length = datas.length

namespace Batched

variable {t : TxnId} {oids : List ObjectId} {datas : List Bytes} {base : WriteSet}
variable {stage stage' : Stage} {m m' : Memory} {s s' : LockingStore Memory}

/-- A stage at which nothing is decided can be followed by a failure that is not about the data. -/
theorem fails (h : Batched t oids datas base stage m) (hundecided : stage.outcome? = none)
    {e : StoreError} (he : ∀ oid, e ≠ .objectNotFound oid) :
    Batched t oids datas base (.failing e) m where
  writes := by
    have hbefore : stage.writes (.setMany oids datas) = [] := by
      unfold Stage.writes Stage.gathered
      rw [hundecided]
    have hafter : (Stage.failing e).writes (.setMany oids datas) = [] :=
      Operation.writes_error (.setMany oids datas) he
    rw [h.writes, hbefore, hafter]
  missing := by
    intro oid houtcome
    cases houtcome
    exact absurd rfl (he oid)
  paired := fun hfine => absurd rfl (hfine e)

/-- What the backend does not find when it carries out the plan is one of the members. -/
theorem missing_of_act {unreported : List ObjectId} {items : List (ObjectId × Bytes)}
    (h : s.act t (.setMany unreported items) = (stage', { s with backend := m' })) {oid : ObjectId}
    (houtcome : stage'.outcome? = some (.error (.objectNotFound oid))) :
    oid ∈ items.map Prod.fst := by
  cases unreported with
  | cons oid' rest =>
      have hstage : Stage.report (.object oid' .write) (.setMany rest items) = stage' :=
        congrArg Prod.fst h
      subst hstage
      cases houtcome
  | nil =>
      rcases callThen_cases h with ⟨-, -, rfl⟩ | ⟨e, hperform, rfl⟩
      · cases houtcome
      · cases houtcome
        unfold Memory.perform at hperform
        split at hperform
        · cases hperform
        · obtain ⟨oid', he, -, hin⟩ := Memory.isAllocated_of_setMany items hperform
          cases he
          exact hin

/-- **Carrying the plan of a batch out.** -/
theorem act {unreported : List ObjectId}
    (h : Batched t oids datas base (.act (.setMany unreported (oids.zip datas))) s.backend)
    (hfits : (Plan.setMany unreported (oids.zip datas)).Fits (.setMany oids datas))
    (hclosed : s.backend.isShutDown = true → s.backend.IsClosed)
    (hact : s.act t (.setMany unreported (oids.zip datas)) =
      (stage', { s with backend := m' })) :
    Batched t oids datas base stage' m' := by
  refine ⟨?_, fun oid houtcome => missing_of_act hact houtcome,
    fun _ => h.paired (by simp [Stage.outcome?, Plan.outcome?])⟩
  have hasked : s.backend.Asked t m' := by
    have hstore : (s.act t (.setMany unreported (oids.zip datas))).2.backend = m' := by rw [hact]
    rw [← hstore]
    exact s.asked_act t _
  rw [hasked.isShutDown]
  cases hshut : s.backend.isShutDown with
  | true =>
      rw [(hclosed hshut).asked hasked, h.writes, hshut]
      rfl
  | false =>
      have hserves : (Plan.setMany unreported (oids.zip datas)).Serves (.setMany oids datas) :=
        ⟨oids, datas, rfl, rfl⟩
      obtain ⟨writes, hbuffers, hdraft⟩ := buffers_of_act hserves hfits hshut hact
      rw [hbuffers.writes, h.writes, hshut, hdraft, WriteSet.recordAll_append]
      rfl

/-- **A step of the batch.** -/
theorem step (h : Batched t oids datas base stage s.backend)
    (hserves : stage.Serves (.setMany oids datas)) (hfits : stage.Fits (.setMany oids datas))
    (hclosed : s.backend.isShutDown = true → s.backend.IsClosed)
    (hstep : OperationStep s t stage stage' s') : Batched t oids datas base stage' s'.backend := by
  have hreported : ∀ {state access plan turn}, stage = .report access plan →
      Reported t state access plan turn stage' → Batched t oids datas base stage' s.backend := by
    rintro state access plan turn rfl hturn
    obtain ⟨unreported, rfl⟩ := plan.eq_setMany hserves hfits
    cases hturn with
    | allowed => exact ⟨h.writes, h.missing, h.paired⟩
    | waiting => exact ⟨h.writes, h.missing, h.paired⟩
    | timedOut => exact h.fails rfl (by simp)
    | late _ _ _ hfound => exact h.fails rfl hfound
  cases hstep with
  | reportsObject _ hturn => exact hreported rfl hturn
  | reportsName _ hturn => exact hreported rfl hturn
  | wakes => exact ⟨h.writes, h.missing, h.paired⟩
  | @acts plan _ backend hact =>
      obtain ⟨unreported, rfl⟩ := plan.eq_setMany hserves hfits
      exact h.act hfits hclosed hact
  | fails => exact ⟨h.writes, h.missing, h.paired⟩

theorem writes_of_ended {result : Except StoreError Reply}
    (h : Batched t oids datas base (.ended result) m) {e : StoreError} (he : result = .error e) :
    (Operation.setMany oids datas).writes result = [] ∨
      ∃ oid before data rest, e = .objectNotFound oid ∧
        oids.zip datas = before ++ (oid, data) :: rest ∧
          (Operation.setMany oids datas).writes result = Write.batch before := by
  subst he
  by_cases hfound : ∀ oid, e ≠ .objectNotFound oid
  · exact Or.inl (Operation.writes_error _ hfound)
  · obtain ⟨oid, rfl⟩ := not_forall_not.mp hfound
    obtain ⟨before, data, rest, hsplit, hbefore⟩ := Write.batchBefore_eq (h.missing oid rfl)
    exact Or.inr ⟨oid, before, data, rest, rfl, hsplit, hbefore⟩

end Batched

namespace Traffic

variable {w w' : LockingTraffic Memory} {t : TxnId}

/-! ### The backend in a run -/

/-- One action asks the backend for one thing at most, or shuts it down. -/
theorem Move.asked (h : w.Move w') :
    (∃ t, w.store.backend.Asked t w'.store.backend) ∨
      w'.store.backend = w.store.backend.shutdown := by
  cases h with
  | rest => exact Or.inl ⟨⟨0⟩, .alone⟩
  | aside => exact Or.inl ⟨⟨0⟩, .alone⟩
  | aborts => exact Or.inl ⟨⟨0⟩, .alone⟩
  | shutsDown =>
      simp only [Backend.perform, Memory.perform_shutdown]
      exact Or.inr trivial
  | @own t _ hown =>
      refine Or.inl ⟨t, ?_⟩
      cases hown with
      | begins => exact .alone
      | starts => exact .alone
      | participates => exact .alone
      | operation _ hstep =>
          cases hstep with
          | @acts plan _ _ hact =>
              have hasked := w.store.asked_act t plan
              rwa [hact] at hasked
          | _ => exact .alone
      | participation _ hstep =>
          cases hstep with
          | @calls called _ _ hcalled =>
              have hasked := w.store.asked_callBackend t called
              rwa [hcalled] at hasked
          | _ => exact .alone

/-- In a run, a backend that is shut down keeps no writes. -/
theorem isClosed_of_isShutDown (shards : Nat) (actions : List StoreAction) :
    ((Traffic.new shards Memory.empty).run actions).store.backend.isShutDown = true →
      ((Traffic.new shards Memory.empty).run actions).store.backend.IsClosed := by
  refine run_induction
    (P := fun w : LockingTraffic Memory =>
      w.store.backend.isShutDown = true → w.store.backend.IsClosed)
    (fun hshut => by cases hshut) (fun w a h hshut => ?_) actions
  rcases (move_perform w a).asked with ⟨t, hasked⟩ | hshutdown
  · have hclosed := h (hasked.isShutDown.symm.trans hshut)
    rwa [hclosed.asked hasked]
  · rw [hshutdown]
    exact Memory.isClosed_shutdown _

/-! ### The whole of an operation -/

section Completes

variable {ρo ρn β : Type} [Reporter ρo ObjectId] [Reporter ρn NameKey] [Backend β]

/-- Whether a call of the transaction is under way from now on until the actions are carried out. -/
def isBusy (t : TxnId) : List StoreAction → Traffic ρo ρn β → Bool
  | [], w => w.calls.contains t
  | a :: rest, w => w.calls.contains t && isBusy t rest (w.perform a)

/-- An operation has begun, and then some actions have been carried out, its own steps among them. -/
def during (t : TxnId) (op : Operation) (middle : List StoreAction) (w : Traffic ρo ρn β) :
    Traffic ρo ρn β :=
  (w.perform (.operate t op)).run middle

/-- After that the operation has taken its last step. -/
def afterwards (t : TxnId) (op : Operation) (middle : List StoreAction) (w : Traffic ρo ρn β) :
    Traffic ρo ρn β :=
  (w.during t op middle).perform (.proceed t)

/-- An operation begins, is under way during some actions, and is answered by its next step. -/
structure Completes (w : Traffic ρo ρn β) (t : TxnId) (op : Operation)
    (middle : List StoreAction) (result : Except StoreError Reply) : Prop where
  free : w.isFree t = true
  busy : isBusy t middle (w.perform (.operate t op)) = true
  answered : (w.afterwards t op middle).log =
    (w.during t op middle).log ++ [.answered t op result]

/-- To begin an operation is to take the first look at its transaction. -/
theorem perform_operate {w : Traffic ρo ρn β} (op : Operation) (hfree : w.isFree t = true) :
    w.perform (.operate t op) =
      { w with
        store := (w.store.start t op).2
        calls := w.calls.insert t (.operation op (w.store.start t op).1) } := by
  simp [Traffic.perform, hfree]

theorem isBusy_concat (t : TxnId) (middle : List StoreAction) (a : StoreAction) :
    ∀ w : Traffic ρo ρn β, isBusy t (middle ++ [a]) w = true →
      isBusy t middle w = true ∧ (w.run (middle ++ [a])).calls.contains t = true := by
  induction middle with
  | nil => exact fun w h => Bool.and_eq_true_iff.mp h
  | cons b rest ih =>
      intro w h
      obtain ⟨hnow, hlater⟩ := Bool.and_eq_true_iff.mp h
      obtain ⟨hrest, hlast⟩ := ih (w.perform b) hlater
      exact ⟨Bool.and_eq_true_iff.mpr ⟨hnow, hrest⟩, hlast⟩

theorem during_concat (t : TxnId) (op : Operation) (middle : List StoreAction) (a : StoreAction)
    (w : Traffic ρo ρn β) : w.during t op (middle ++ [a]) = (w.during t op middle).perform a :=
  run_concat middle a _

theorem during_run (actions middle : List StoreAction) (t : TxnId) (op : Operation)
    (w : Traffic ρo ρn β) :
    (w.run actions).during t op middle = w.run (actions ++ [.operate t op] ++ middle) := by
  rw [run_append, run_concat]
  rfl

theorem afterwards_run (actions middle : List StoreAction) (t : TxnId) (op : Operation)
    (w : Traffic ρo ρn β) :
    (w.run actions).afterwards t op middle =
      w.run (actions ++ [.operate t op] ++ middle ++ [.proceed t]) := by
  rw [run_concat, ← during_run]
  rfl

end Completes

/-- A transaction whose operation is still under way has begun, or has taken a step of it. -/
theorem OwnMove.of_operation {op : Operation} {stage : Stage} (h : w.OwnMove t w')
    (hcall : w.calls.get? t = some (.operation op stage)) (hbusy : w'.calls.contains t = true) :
    w'.calls.get? t = some (.operation op stage) ∧ w'.log = w.log ∧
        w'.store.backend = w.store.backend ∨
      ∃ stage', OperationStep w.store t stage stage' w'.store ∧
        w'.calls.get? t = some (.operation op stage') ∧
          w'.log = w.log ++ Event.ofStep t op stage stage' ∧ ∀ result, stage' ≠ .ended result := by
  cases h with
  | begins => exact Or.inl ⟨hcall, rfl, rfl⟩
  | starts hfree => cases hfree.symm.trans hcall
  | participates hfree => cases hfree.symm.trans hcall
  | participation hcall' => cases hcall'.symm.trans hcall
  | @operation _ _ stage' _ hcall' hstep =>
      cases hcall'.symm.trans hcall
      have hleft : (w.calls.change t (Call.ofStage op stage')).get? t = Call.ofStage op stage' :=
        FinMap.get?_change_self _ _ _
      refine Or.inr ⟨stage', hstep, ?_⟩
      cases stage' with
      | ended result =>
          -- An operation that has ended is not under way.
          unfold FinMap.contains at hbusy
          rw [hleft] at hbusy
          cases hbusy
      | _ => exact ⟨hleft, rfl, by simp⟩

/-! ### The whole of a batch -/

variable {oids : List ObjectId} {datas : List Bytes} {base : WriteSet}

/-- A batch of the transaction is under way, and this is what it has come to. -/
def Batching (w : LockingTraffic Memory) (t : TxnId) (oids : List ObjectId) (datas : List Bytes)
    (base : WriteSet) : Prop :=
  ∃ stage, w.calls.get? t = some (.operation (.setMany oids datas) stage) ∧
    Batched t oids datas base stage w.store.backend

theorem batching_of_operate (oids : List ObjectId) (datas : List Bytes) (hfree : w.isFree t = true)
    (hclosed : w.store.backend.isShutDown = true → w.store.backend.IsClosed) :
    Batching (w.perform (.operate t (.setMany oids datas))) t oids datas
      (w.store.backend.writes t) := by
  rw [perform_operate _ hfree]
  refine ⟨_, FinMap.get?_insert_self _ _ _, ?_⟩
  have hbegins := w.store.begins_start t (.setMany oids datas)
  show Batched _ _ _ _ _ (w.store.start t (.setMany oids datas)).2.backend
  rw [Store.backend_start]
  refine ⟨?_, fun oid houtcome => ?_, fun hfine => Store.paired_of_start hfine⟩
  · rw [hbegins.writes]
    cases hshut : w.store.backend.isShutDown with
    | true =>
        refine Memory.writes_of_pending_eq_none ?_
        rw [(hclosed hshut).pending]
        rfl
    | false => rfl
  · rcases hbegins with hfirst | ⟨e, hfails, he⟩
    · rw [hfirst, Stage.outcome?_firstStage] at houtcome
      cases houtcome
    · rw [hfails] at houtcome
      cases houtcome
      exact absurd rfl (he oid)

/-- **Whatever happens while a batch is under way.** -/
theorem Batching.perform (h : Batching w t oids datas base) (hsound : Sound w)
    (haccounted : Accounted w t)
    (hclosed : w.store.backend.isShutDown = true → w.store.backend.IsClosed) (a : StoreAction)
    (hbusy : (w.perform a).calls.contains t = true) : Batching (w.perform a) t oids datas base := by
  obtain ⟨stage, hcall, hbatched⟩ := h
  have hown := (move_perform w a).beside_or_own t
  generalize w.perform a = w' at hown hbusy
  rcases hown with hbeside | hown
  · refine ⟨stage, hbeside.call.trans hcall, ?_, hbatched.missing, hbatched.paired⟩
    rcases hbeside.writes with ⟨hsame, hshut⟩ | ⟨hshut, hgone⟩
    · rw [Memory.writes_congr hsame, hshut]
      exact hbatched.writes
    · rw [Memory.writes_of_pending_eq_none hgone, hshut]
      rfl
  · rcases hown.of_operation hcall hbusy with ⟨hsame, -, hbackend⟩ | ⟨stage', hstep, hcall', -, -⟩
    · exact ⟨stage, hsame, hbackend ▸ hbatched⟩
    · exact ⟨stage', hcall', hbatched.step (haccounted.serves _ _ hcall)
        ((hsound.traced t).fits _ _ hcall).1 hclosed hstep⟩

theorem Batching.run (shards : Nat) (middle : List StoreAction) :
    ∀ actions, Batching ((Traffic.new shards Memory.empty).run actions) t oids datas base →
      isBusy t middle ((Traffic.new shards Memory.empty).run actions) = true →
      Batching (((Traffic.new shards Memory.empty).run actions).run middle) t oids datas base := by
  induction middle with
  | nil => exact fun _ h _ => h
  | cons a rest ih =>
      intro actions h hbusy
      obtain ⟨-, hrest⟩ := Bool.and_eq_true_iff.mp hbusy
      have hstill : (((Traffic.new shards Memory.empty).run actions).perform a).calls.contains t =
          true := by
        cases rest with
        | nil => exact hrest
        | cons => exact (Bool.and_eq_true_iff.mp hrest).1
      have hnext := h.perform (Sound.run shards actions) (Accounted.run shards actions t)
        (isClosed_of_isShutDown shards actions) a hstill
      rw [← run_concat] at hnext hrest
      have hrun := ih (actions ++ [a]) hnext hrest
      rwa [run_concat] at hrun

theorem Completes.batched {shards : Nat} {actions middle : List StoreAction}
    {result : Except StoreError Reply}
    (h : ((Traffic.new shards Memory.empty).run actions).Completes t (.setMany oids datas) middle
      result) :
    Batched t oids datas (((Traffic.new shards Memory.empty).run actions).store.backend.writes t)
      (.ended result)
      (((Traffic.new shards Memory.empty).run actions).afterwards t (.setMany oids datas)
        middle).store.backend := by
  have hbegun := batching_of_operate oids datas h.free (isClosed_of_isShutDown shards actions)
  have hbusy := h.busy
  rw [← run_concat] at hbegun hbusy
  obtain ⟨stage, hcall, hbatched⟩ := Batching.run shards middle _ hbegun hbusy
  have hmove := move_perform
    (((Traffic.new shards Memory.empty).run actions).during t (.setMany oids datas) middle)
    (.proceed t)
  obtain ⟨stage', hcall', hstep⟩ := hmove.endsIn h.answered
  rw [during_run, run_append] at hcall' hstep
  cases hcall'.symm.trans hcall
  have hsound := Sound.run shards (actions ++ [.operate t (.setMany oids datas)] ++ middle)
  have haccounted := Accounted.run shards (actions ++ [.operate t (.setMany oids datas)] ++ middle) t
  have hclosed :=
    isClosed_of_isShutDown shards (actions ++ [.operate t (.setMany oids datas)] ++ middle)
  rw [run_append] at hsound haccounted hclosed
  have hended := hbatched.step (haccounted.serves _ _ hcall) ((hsound.traced t).fits _ _ hcall).1
    hclosed hstep
  rwa [← run_append, ← during_run] at hended

/-- An operation that succeeds has been active, or has been aborted meanwhile. -/
theorem stateOf_of_ok (hsound : Sound w) (hmove : w.Move w') {op : Operation} {reply : Reply}
    (hlog : w'.log = w.log ++ [.answered t op (.ok reply)]) :
    w'.store.register.stateOf t = .active ∨ w'.store.register.stateOf t = .aborted := by
  obtain ⟨stage, hcall, hstep⟩ := hmove.endsIn hlog
  have hwas := (hsound.consistent t).operating op stage hcall
  generalize w'.store = store at hstep
  cases hstep with
  | reportsObject _ hturn => cases hturn
  | reportsName _ hturn => cases hturn
  | acts =>
      rcases hwas with hactive | haborted | ⟨e, hfails, -⟩
      · exact Or.inl hactive
      · exact Or.inr haborted
      · cases hfails

/-- Whoever has been told that its batch succeeded holds the lock on each of the objects, unless it has
been aborted meanwhile. -/
theorem holds_of_batch (hsound : Sound w) (hmove : w.Move w') (hretains : Retains w')
    (hcovered : Covered w' t) {reply : Reply}
    (hlog : w'.log = w.log ++ [.answered t (.setMany oids datas) (.ok reply)]) {oid : ObjectId}
    (hin : oid ∈ oids) :
    w'.Holds t (.object oid .write) ∨ w'.store.register.stateOf t = .aborted := by
  refine (stateOf_of_ok hsound hmove hlog).imp_left fun hactive => ?_
  have hanswered : .answered t (.setMany oids datas) (.ok reply) ∈ w'.log := by
    rw [hlog]
    exact List.mem_append_right _ (List.mem_singleton_self _)
  have haccessed := hcovered.answered _ _ hanswered rfl (.object oid .write)
    (List.mem_map.mpr ⟨oid, hin, rfl⟩)
  exact hretains.holds haccessed (Register.isOpen_iff.mpr (Or.inl hactive))

/--
**A batch writes all of its members, or those before the missing one.**  Other transactions may do
anything while the batch is under way.  At its answer the transaction has the writes that it had before
and those of the batch, and sees its objects accordingly; only a backend that has been shut down has
forgotten them all.  A batch that succeeds has written every member in order, and the transaction holds
the lock on each of the objects, unless it has been aborted meanwhile.  A batch that fails has written
nothing; but if it was for want of an object, it has written what comes before it.
-/
theorem writes_of_batch {shards : Nat} {actions middle : List StoreAction} {t : TxnId}
    {oids : List ObjectId} {datas : List Bytes} {result : Except StoreError Reply}
    (h : ((Traffic.new shards Memory.empty).run actions).Completes t (.setMany oids datas) middle
      result) :
    let w := (Traffic.new shards Memory.empty).run actions
    let w' := w.afterwards t (.setMany oids datas) middle
    let m' := w'.store.backend
    let before := w.store.backend.writes t
    let written := (Operation.setMany oids datas).writes result
    (m'.writes t = if m'.isShutDown then .empty else before.recordAll written) ∧
      (m'.isShutDown = false → ∀ oid, m'.object? t oid =
        Write.objectAfter oid (m'.objects.under? before.objects oid) written) ∧
      (∀ reply, result = .ok reply →
        oids.length = datas.length ∧ written = Write.batch (oids.zip datas) ∧
          ∀ oid ∈ oids, w'.Holds t (.object oid .write) ∨
            w'.store.register.stateOf t = .aborted) ∧
      ∀ e, result = .error e →
        written = [] ∨ ∃ oid prior data rest, e = .objectNotFound oid ∧
          oids.zip datas = prior ++ (oid, data) :: rest ∧ written = Write.batch prior := by
  intro w w' m' before written
  have hbatched : Batched t oids datas before (.ended result) m' := h.batched
  have hwrites : m'.writes t = if m'.isShutDown then .empty else before.recordAll written :=
    hbatched.writes
  refine ⟨hwrites, fun hopen oid => ?_, ?_, fun e he => hbatched.writes_of_ended he⟩
  · unfold Memory.object?
    rw [hwrites, hopen]
    exact WriteSet.object?_recordAll _ _ _ _
  · rintro reply rfl
    refine ⟨hbatched.paired (by simp [Stage.outcome?]), rfl, fun oid hin => ?_⟩
    have hsound := Sound.run shards (actions ++ [.operate t (.setMany oids datas)] ++ middle)
    rw [← during_run] at hsound
    have hretains := Retains.run shards Memory.empty
      (actions ++ [.operate t (.setMany oids datas)] ++ middle ++ [.proceed t])
    have hcovered := Covered.run shards
      (actions ++ [.operate t (.setMany oids datas)] ++ middle ++ [.proceed t]) t
    rw [← afterwards_run] at hretains hcovered
    exact holds_of_batch hsound (move_perform _ (.proceed t)) hretains hcovered h.answered hin

/-- A transaction has made an object. -/
def objectMade : List StoreAction := [.begin ⟨1⟩ ⟨1, 0⟩ 9, .operate ⟨1⟩ .create, .proceed ⟨1⟩]

/-- It sets that object, and one that nobody has made. -/
def secondMissing : Operation := .setMany [⟨1⟩, ⟨99⟩] [[0xaa], [0xbb]]

theorem completes_secondMissing :
    ((Traffic.new 1 Memory.empty).run objectMade).Completes ⟨1⟩ secondMissing
      (List.replicate 5 (.proceed ⟨1⟩)) (.error (.objectNotFound ⟨99⟩)) :=
  ⟨by decide, by decide, rfl⟩

/-- What it sees is what the first of the two writes makes of the object. -/
theorem writes_of_batch_secondMissing :
    let w := (Traffic.new 1 Memory.empty).run objectMade
    let m' := (w.afterwards ⟨1⟩ secondMissing (List.replicate 5 (.proceed ⟨1⟩))).store.backend
    w.Completes ⟨1⟩ secondMissing (List.replicate 5 (.proceed ⟨1⟩))
        (.error (.objectNotFound ⟨99⟩)) ∧
      m'.object? ⟨1⟩ ⟨1⟩ = Write.objectAfter ⟨1⟩
        (m'.objects.under? (w.store.backend.writes ⟨1⟩).objects ⟨1⟩)
        [.object ⟨1⟩ (some [0xaa])] := by
  have hseen := (writes_of_batch completes_secondMissing).2.1 (by decide) ⟨1⟩
  exact ⟨completes_secondMissing, hseen⟩

/-- **A batch that fails can leave a write behind.**  The transaction goes on with it. -/
theorem exists_write_of_failed_batch :
    let w := (Traffic.new 1 Memory.empty).run objectMade
    let w' := w.afterwards ⟨1⟩ secondMissing (List.replicate 5 (.proceed ⟨1⟩))
    w.Completes ⟨1⟩ secondMissing (List.replicate 5 (.proceed ⟨1⟩))
        (.error (.objectNotFound ⟨99⟩)) ∧
      w.store.backend.object? ⟨1⟩ ⟨1⟩ = some [] ∧
      w'.store.backend.object? ⟨1⟩ ⟨1⟩ = some [0xaa] ∧
      w'.store.register.stateOf ⟨1⟩ = .active :=
  ⟨completes_secondMissing, by decide, by decide, by decide⟩

end Traffic

end ObjectStore
