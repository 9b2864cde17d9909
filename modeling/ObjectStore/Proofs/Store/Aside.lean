/-
What becomes of a transaction for which nobody acts.

The one thing that can happen to it is that it is aborted.  No writes of it appear, nor does a
reporter come to keep anything of it, and it is not seen to commit.  `Traffic.LeavesAlone` says so, and
`Traffic.minds_perform` that every action leaves alone whoever it is not taken for, as long as the
reporters keep to their laws.
-/
import ObjectStore.Proofs.Backend.Closed
import ObjectStore.Proofs.Store.Reporting
import ObjectStore.Proofs.Transaction.Fading

namespace ObjectStore

/-- The transaction for which an action is taken.  To wound is not to act for anybody. -/
def StoreAction.owner? : StoreAction → Option TxnId
  | .begin t _ _ => some t
  | .operate t _ => some t
  | .participate t _ => some t
  | .proceed t => some t
  | .cancel t _ => some t
  | _ => none

variable {ρo ρn : Type}

theorem Store.start_register (s : Store ρo ρn Memory) (u : TxnId) (op : Operation) :
    ∃ register, (s.start u op).2 = { s with register } ∧
      ∀ t, s.register.Fades t register := by
  have hlook : ∀ t, s.register.Fades t (s.register.update u (·.checkActive s.now)).2 :=
    fun t => Register.fades_update t (Txn.fades_checkActive _ _)
  have hcheck : (s.checkActive u).2 =
      { s with register := (s.register.update u (·.checkActive s.now)).2 } := rfl
  unfold start
  split
  · exact ⟨s.register, rfl, fun t => .refl _ t⟩
  · split
    · rename_i heq
      rw [heq] at hcheck
      exact ⟨_, hcheck, hlook⟩
    · rename_i heq
      rw [heq] at hcheck
      exact ⟨_, hcheck, hlook⟩

variable [Reporter ρo ObjectId] [Reporter ρn NameKey]
variable {lo : ReporterLaws ρo} {ln : ReporterLaws ρn}

namespace Store

variable {s s' s'' : Store ρo ρn Memory} {t u : TxnId}

/-- The reporters are in order. -/
structure IsSound (lo : ReporterLaws ρo) (ln : ReporterLaws ρn) (s : Store ρo ρn Memory) : Prop where
  objects : lo.IsSound s.objects
  names : ln.IsSound s.names

/-- A transaction has been left alone, but for an abort. -/
structure Spares (lo : ReporterLaws ρo) (ln : ReporterLaws ρn) (s : Store ρo ρn Memory) (t : TxnId)
    (s' : Store ρo ρn Memory) : Prop where
  register : s.register.Fades t s'.register
  writes : s.backend.pending.get? t = none → s'.backend.pending.get? t = none
  objects : lo.Lacks s.objects t → lo.Lacks s'.objects t
  names : ln.Lacks s.names t → ln.Lacks s'.names t

theorem Spares.refl (s : Store ρo ρn Memory) (t : TxnId) : Spares lo ln s t s :=
  ⟨.refl _ t, id, id, id⟩

theorem Spares.trans (h : Spares lo ln s t s') (h' : Spares lo ln s' t s'') : Spares lo ln s t s'' :=
  ⟨h.register.trans h'.register, fun hnone => h'.writes (h.writes hnone),
    fun hlacks => h'.objects (h.objects hlacks), fun hlacks => h'.names (h.names hlacks)⟩

theorem spares_register {register : Register} {now : Nat} (h : s.register.Fades t register) :
    Spares lo ln s t { s with now, register } :=
  ⟨h, id, id, id⟩

theorem spares_tick (s : Store ρo ρn Memory) (n : Nat) (t : TxnId) : Spares lo ln s t (s.tick n) :=
  ⟨.refl _ t, id, id, id⟩

theorem spares_updateTxn {α : Type} (hu : u ≠ t) (f : Txn → α × Txn) :
    Spares lo ln s t (s.updateTxn u f).2 :=
  spares_register (Register.fades_update_of_ne hu)

theorem spares_backend {backend : Memory} (hasked : s.backend.Asked u backend) (hu : u ≠ t) :
    Spares lo ln s t { s with backend } :=
  ⟨.refl _ t, hasked.pending_of_ne hu, id, id⟩

/-- A step has kept the reporters in order, and has spared whoever it is not about. -/
structure Minds (lo : ReporterLaws ρo) (ln : ReporterLaws ρn) (s : Store ρo ρn Memory) (u : TxnId)
    (s' : Store ρo ρn Memory) : Prop where
  sound : IsSound lo ln s'
  spares : ∀ t, u ≠ t → Spares lo ln s t s'

theorem minds_report (h : IsSound lo ln s) {access : Access} {turn : AccessTurn}
    (hreport : s.report u access = (turn, s')) :
    Minds lo ln s u s' ∧ s.register.Wounded s'.register := by
  cases access with
  | object oid mode =>
      simp only [Store.report] at hreport
      rcases hobjects : Reporter.report s.now u oid mode s.register s.objects
        with ⟨turn', register, objects⟩
      rw [hobjects] at hreport
      cases hreport
      obtain ⟨hsound, hwounded, hothers⟩ := lo.report h.objects hobjects
      exact ⟨⟨⟨hsound, h.names⟩, fun t ht => ⟨hwounded.fades t, id, hothers t ht, id⟩⟩, hwounded⟩
  | name key mode =>
      simp only [Store.report] at hreport
      rcases hnames : Reporter.report s.now u key mode s.register s.names
        with ⟨turn', register, names⟩
      rw [hnames] at hreport
      cases hreport
      obtain ⟨hsound, hwounded, hothers⟩ := ln.report h.names hnames
      exact ⟨⟨⟨h.objects, hsound⟩, fun t ht => ⟨hwounded.fades t, id, id, hothers t ht⟩⟩, hwounded⟩

theorem Minds.trans (h : Minds lo ln s u s') (h' : Minds lo ln s' u s'') : Minds lo ln s u s'' :=
  ⟨h'.sound, fun t ht => (h.spares t ht).trans (h'.spares t ht)⟩

theorem minds_updateTxn {α : Type} (h : IsSound lo ln s) (u : TxnId) (f : Txn → α × Txn) :
    Minds lo ln s u (s.updateTxn u f).2 :=
  ⟨⟨h.objects, h.names⟩, fun _ ht => spares_updateTxn ht f⟩

theorem minds_begin (h : IsSound lo ln s) (u : TxnId) (seniority : Seniority) (lifetime : Nat) :
    Minds lo ln s u (s.begin u seniority lifetime) :=
  ⟨⟨h.objects, h.names⟩, fun _ ht => spares_register (Register.fades_start_of_ne ht _ _)⟩

theorem minds_start (h : IsSound lo ln s) (u : TxnId) (op : Operation) :
    Minds lo ln s u (s.start u op).2 := by
  obtain ⟨register, hstart, hfades⟩ := s.start_register u op
  rw [hstart]
  exact ⟨⟨h.objects, h.names⟩, fun t _ => spares_register (hfades t)⟩

theorem spares_describe (h : IsSound lo ln s) (u : TxnId) (subject : Subject) (text : String) :
    IsSound lo ln (s.describe u subject text) ∧
      ∀ t, Spares lo ln s t (s.describe u subject text) := by
  cases subject with
  | object oid =>
      obtain ⟨hsound, hothers⟩ := lo.describe u oid text h.objects
      exact ⟨⟨hsound, h.names⟩, fun t => ⟨.refl _ t, id, hothers t, id⟩⟩
  | name name =>
      obtain ⟨hsound, hothers⟩ := ln.describe u (.ofName name) text h.names
      exact ⟨⟨h.objects, hsound⟩, fun t => ⟨.refl _ t, id, id, hothers t⟩⟩

/-- A step of an operation minds the others, and lets its own transaction fade at most. -/
theorem minds_step (h : IsSound lo ln s) (u : TxnId) (stage : Stage) :
    Minds lo ln s u (s.step u stage).2 ∧ s.register.Fades u (s.step u stage).2.register := by
  have hrest : Minds lo ln s u s ∧ s.register.Fades u s.register :=
    ⟨⟨h, fun t _ => .refl s t⟩, .refl _ u⟩
  cases stage with
  | report access plan =>
      rcases hreport : s.report u access with ⟨turn, s'⟩
      obtain ⟨hminds, hwounded⟩ := minds_report h hreport
      have hstep : (s.step u (.report access plan)).2 = s' := by
        simp only [step, hreport]
        cases turn <;> rfl
      rw [hstep]
      exact ⟨hminds, hwounded.fades u⟩
  | waiting signal access plan =>
      simp only [step]
      split <;> exact hrest
  | act plan =>
      obtain ⟨backend, hbackend⟩ := s.act_backend u plan
      have hasked := s.asked_act u plan
      show Minds lo ln s u (s.act u plan).2 ∧ _
      rw [hbackend] at hasked
      have hstep : (s.step u (.act plan)).2 = { s with backend } := hbackend
      rw [hstep, hbackend]
      exact ⟨⟨⟨h.objects, h.names⟩, fun t ht => spares_backend hasked ht⟩, .refl _ u⟩
  | failing e =>
      exact ⟨⟨⟨h.objects, h.names⟩, fun t _ => spares_register (Register.fades_noteFailure _ u e t)⟩,
        Register.fades_noteFailure _ u e u⟩
  | ended result => exact hrest

/-- The first step of a participant call is the look at the status. -/
theorem participantStep_enter (s : Store ρo ρn Memory) (u : TxnId) (call : ParticipantCall) :
    ∃ stage, (stage = .backend call ∧ (s.enter u call).1 = .ok () ∨
        ∃ e, stage = .failing e ∧ (s.enter u call).1 = .error e) ∧
      s.participantStep u (.enter call) = (stage, (s.enter u call).2) := by
  rcases henter : s.enter u call with ⟨e | _, s'⟩
  · exact ⟨.failing e, Or.inr ⟨e, rfl, rfl⟩, by simp only [participantStep, henter]⟩
  · exact ⟨.backend call, Or.inl ⟨rfl, rfl⟩, by simp only [participantStep, henter]⟩

/-- A look at the status with which a participant call begins concerns one transaction. -/
theorem minds_enter (h : IsSound lo ln s) (u : TxnId) (call : ParticipantCall) :
    Minds lo ln s u (s.enter u call).2 := by
  refine ⟨?_, fun t ht => ?_⟩
  · cases call <;> exact ⟨h.objects, h.names⟩
  · cases call with
    | prepare => exact spares_updateTxn ht (·.beginPrepare s.now)
    | commit => exact .refl s t
    | prepareAndCommit => exact spares_updateTxn ht (·.beginPrepare s.now)
    | abort => exact spares_updateTxn ht (·.beginParticipantAbort)

theorem minds_participantStep (h : IsSound lo ln s) (u : TxnId) (stage : ParticipantStage) :
    Minds lo ln s u (s.participantStep u stage).2 := by
  cases stage with
  | enter call =>
      obtain ⟨stage, -, hstep⟩ := s.participantStep_enter u call
      rw [hstep]
      exact minds_enter h u call
  | backend call =>
      obtain ⟨backend, hbackend⟩ := s.callBackend_backend u call
      have hasked := s.asked_callBackend u call
      have hstep : (s.participantStep u (.backend call)).2 = { s with backend } := hbackend
      rw [hbackend] at hasked
      rw [hstep]
      exact ⟨⟨h.objects, h.names⟩, fun t ht => spares_backend hasked ht⟩
  | committed reply =>
      exact ⟨⟨h.objects, h.names⟩, fun t ht => spares_updateTxn ht fun txn => ((), txn.completeCommit)⟩
  | releaseObjects result =>
      obtain ⟨hsound, -, hothers⟩ := lo.finish u h.objects
      exact ⟨⟨hsound, h.names⟩, fun t _ => ⟨.refl _ t, id, hothers t, id⟩⟩
  | releaseNames result =>
      obtain ⟨hsound, -, hothers⟩ := ln.finish u h.names
      exact ⟨⟨h.objects, hsound⟩, fun t _ => ⟨.refl _ t, id, id, hothers t⟩⟩
  | failing e =>
      exact ⟨⟨h.objects, h.names⟩, fun t _ => spares_register (Register.fades_noteFailure _ u e t)⟩
  | ended result => exact ⟨h, fun t _ => .refl s t⟩

end Store

/-- What the steps of a call show of a commit is about the transaction of the call. -/
theorem Event.committed_not_mem_ofStep {t u : TxnId} {op : Operation} {stage stage' : Stage} :
    committed t ∉ ofStep u op stage stage' := by
  unfold ofStep
  split <;> simp

theorem Event.committed_mem_ofParticipantStep {t u : TxnId} {call : ParticipantCall}
    {stage stage' : ParticipantStage} (h : committed t ∈ ofParticipantStep u call stage stage') :
    t = u ∧ ∃ reply, stage' = .committed reply := by
  unfold ofParticipantStep at h
  split at h
  · exact ⟨by simpa using h, _, rfl⟩
  · exact absurd h (by simp)
  · exact absurd h (by simp)

namespace Traffic

variable {w w' w'' : Traffic ρo ρn Memory} {t u : TxnId}

/-- A transaction has been left alone, but for an abort. -/
structure LeavesAlone (lo : ReporterLaws ρo) (ln : ReporterLaws ρn) (w : Traffic ρo ρn Memory)
    (t : TxnId) (w' : Traffic ρo ρn Memory) : Prop where
  store : w.store.Spares lo ln t w'.store
  log : ∃ events, w'.log = w.log ++ events ∧ Event.committed t ∉ events

namespace LeavesAlone

theorem of_store {store : Store ρo ρn Memory} (h : w.store.Spares lo ln t store) :
    w.LeavesAlone lo ln t { w with store } :=
  ⟨h, [], (List.append_nil _).symm, List.not_mem_nil⟩

theorem refl (w : Traffic ρo ρn Memory) (t : TxnId) : w.LeavesAlone lo ln t w := of_store (.refl _ t)

theorem trans (h : w.LeavesAlone lo ln t w') (h' : w'.LeavesAlone lo ln t w'') :
    w.LeavesAlone lo ln t w'' := by
  obtain ⟨events, hlog, hevents⟩ := h.log
  obtain ⟨events', hlog', hevents'⟩ := h'.log
  refine ⟨h.store.trans h'.store, events ++ events', ?_, ?_⟩
  · rw [hlog', hlog, List.append_assoc]
  · simp [hevents, hevents']

/-- The calls under way, and what the log shows besides the commit, are not looked at. -/
theorem of_events {store : Store ρo ρn Memory} {calls : FinMap TxnId Call} {events : List Event}
    (h : w.store.Spares lo ln t store) (hevents : Event.committed t ∉ events) :
    w.LeavesAlone lo ln t ⟨store, calls, w.log ++ events⟩ :=
  ⟨h, events, rfl, hevents⟩

/-- What the others see of a transaction that is left alone. -/
theorem committed_iff (h : w.LeavesAlone lo ln t w') :
    .committed t ∈ w'.log ↔ .committed t ∈ w.log := by
  obtain ⟨events, hlog, hevents⟩ := h.log
  rw [hlog, List.mem_append, or_iff_left hevents]

theorem mem_log (h : w.LeavesAlone lo ln t w') {e : Event} (he : e ∈ w.log) : e ∈ w'.log := by
  obtain ⟨events, hlog, -⟩ := h.log
  rw [hlog]
  exact List.mem_append_left _ he

end LeavesAlone

/-- An action has kept the reporters in order, and has left alone whoever it was not taken for. -/
structure Minds (lo : ReporterLaws ρo) (ln : ReporterLaws ρn) (w : Traffic ρo ρn Memory)
    (owner : Option TxnId) (w' : Traffic ρo ρn Memory) : Prop where
  sound : w'.store.IsSound lo ln
  alone : ∀ t, owner ≠ some t → w.LeavesAlone lo ln t w'

/-- The store has taken a step for a transaction. -/
theorem minds_store {store : Store ρo ρn Memory} (h : w.store.Minds lo ln u store)
    (calls : FinMap TxnId Call) : w.Minds lo ln (some u) ⟨store, calls, w.log⟩ :=
  ⟨h.sound, fun t ht => ⟨h.spares t fun heq => ht (congrArg some heq), [],
    (List.append_nil _).symm, List.not_mem_nil⟩⟩

theorem minds_proceedOperation (h : w.store.IsSound lo ln) (u : TxnId) (op : Operation)
    (stage : Stage) : w.Minds lo ln (some u) (w.proceedOperation u op stage) := by
  have hminds := (Store.minds_step h u stage).1
  refine ⟨hminds.sound, fun t ht => ?_⟩
  have hne : u ≠ t := fun heq => ht (congrArg some heq)
  exact .of_events (hminds.spares t hne) Event.committed_not_mem_ofStep

theorem minds_proceedParticipation (h : w.store.IsSound lo ln) (u : TxnId) (call : ParticipantCall)
    (stage : ParticipantStage) :
    w.Minds lo ln (some u) (w.proceedParticipation u call stage) := by
  have hminds := Store.minds_participantStep h u stage
  refine ⟨hminds.sound, fun t ht => ?_⟩
  have hne : u ≠ t := fun heq => ht (congrArg some heq)
  refine .of_events (hminds.spares t hne) fun hin => ?_
  exact hne (Event.committed_mem_ofParticipantStep hin).1.symm

/-- **Every action minds those for whom it is not taken.** -/
theorem minds_perform (h : w.store.IsSound lo ln) (a : StoreAction) :
    w.Minds lo ln a.owner? (w.perform a) := by
  have hrest : ∀ owner, w.Minds lo ln owner w := fun _ => ⟨h, fun t _ => .refl w t⟩
  cases a with
  | begin u seniority lifetime =>
      simp only [perform]
      split
      · exact hrest _
      · exact minds_store (Store.minds_begin h u seniority lifetime) w.calls
  | operate u op =>
      simp only [perform]
      split
      · exact minds_store (Store.minds_start h u op) _
      · exact hrest _
  | participate u call =>
      simp only [perform]
      split
      · exact minds_store ⟨h, fun t _ => .refl _ t⟩ _
      · exact hrest _
  | proceed u =>
      simp only [perform]
      split
      · exact hrest _
      · rename_i op stage hcall
        split
        · exact minds_proceedOperation h u op stage
        · exact hrest _
      · rename_i call stage hcall
        split
        · exact minds_proceedParticipation h u call stage
        · exact hrest _
  | cancel u cause =>
      simp only [perform]
      split
      · exact minds_store (Store.minds_updateTxn h u (·.abort cause)) w.calls
      · exact hrest _
  | wound u reason =>
      simp only [perform]
      split
      · refine ⟨⟨h.objects, h.names⟩, fun t _ => .of_store (Store.spares_register ?_)⟩
        exact Register.fades_update t (Txn.fades_wound _ reason)
      · exact hrest _
  | describe u subject text =>
      obtain ⟨hsound, hspares⟩ := Store.spares_describe h u subject text
      exact ⟨hsound, fun t _ => .of_store (hspares t)⟩
  | tick n => exact ⟨⟨h.objects, h.names⟩, fun t _ => .of_store (Store.spares_tick _ n t)⟩
  | shutdown =>
      simp only [perform, Store.shutdown]
      split
      · exact hrest _
      · refine ⟨⟨h.objects, h.names⟩, fun t _ => .of_store ⟨.refl _ t, fun _ => ?_, id, id⟩⟩
        simp only [Store.call, Backend.perform, Memory.perform_shutdown]
        rfl

/-- A run of actions minds those for whom none of them is taken. -/
theorem minds_run (h : w.store.IsSound lo ln) (actions : List StoreAction) :
    (w.run actions).store.IsSound lo ln ∧
      ∀ t, (∀ a ∈ actions, a.owner? ≠ some t) → w.LeavesAlone lo ln t (w.run actions) := by
  induction actions generalizing w with
  | nil => exact ⟨h, fun t _ => .refl w t⟩
  | cons a rest ih =>
      have hminds := minds_perform h a
      obtain ⟨hsound, halone⟩ := ih hminds.sound
      refine ⟨hsound, fun t ht => (hminds.alone t (ht a ?_)).trans (halone t fun a' ha' => ht a' ?_)⟩
      · exact List.mem_cons_self
      · exact List.mem_cons_of_mem a ha'

end Traffic

end ObjectStore
