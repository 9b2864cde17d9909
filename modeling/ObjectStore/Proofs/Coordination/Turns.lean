/-
A task and the others by turns.

Whenever the task takes a step the others have had their turn.  `Contended.Onward` says what a step
for one transaction means to all the others that only the task may act for: they have been left alone.
What the step means to its own transaction is another matter: uses of the store let it fade at most, a
commit finishes it or leaves it pending, and the cleaning up after a failure leaves nothing of it.
-/
import ObjectStore.Proofs.Coordination.Attempt

namespace ObjectStore

variable {ρo ρn : Type} [Reporter ρo ObjectId] [Reporter ρn NameKey]
variable {lo : ReporterLaws ρo} {ln : ReporterLaws ρn}

namespace Contended

variable {s s' s'' : Contended ρo ρn} {mine : TxnId → Prop} {t : TxnId} {σ : Seniority}

/-- The reporters are in order, and the others act for none of the transactions that are not theirs. -/
structure Ready (lo : ReporterLaws ρo) (ln : ReporterLaws ρn) (mine : TxnId → Prop)
    (s : Contended ρo ρn) : Prop where
  sound : s.traffic.store.IsSound lo ln
  foreign : ∀ batch ∈ s.coming, ∀ a ∈ batch, ∀ t, mine t → a.owner? ≠ some t

/-- The task has taken steps for `t`, and the others have acted in between. -/
structure Onward (lo : ReporterLaws ρo) (ln : ReporterLaws ρn) (mine : TxnId → Prop)
    (s : Contended ρo ρn) (t : TxnId) (s' : Contended ρo ρn) : Prop where
  ready : s'.Ready lo ln mine
  log : s.traffic.log <+: s'.traffic.log
  alone : ∀ u, mine u → t ≠ u → s.traffic.LeavesAlone lo ln u s'.traffic

theorem Ready.onward (h : s.Ready lo ln mine) (t : TxnId) : s.Onward lo ln mine t s :=
  ⟨h, List.prefix_refl _, fun u _ _ => .refl _ u⟩

theorem Onward.trans (h : s.Onward lo ln mine t s') (h' : s'.Onward lo ln mine t s'') :
    s.Onward lo ln mine t s'' :=
  ⟨h'.ready, h.log.trans h'.log, fun u hu ht => (h.alone u hu ht).trans (h'.alone u hu ht)⟩

/-- The others have their turn. -/
theorem Ready.giveWay (h : s.Ready lo ln mine) :
    s.giveWay.Ready lo ln mine ∧ ∀ t, mine t → s.traffic.LeavesAlone lo ln t s.giveWay.traffic := by
  obtain ⟨traffic, coming⟩ := s
  cases coming with
  | nil => exact ⟨h, fun t _ => .refl _ t⟩
  | cons batch rest =>
      obtain ⟨hsound, halone⟩ := Traffic.minds_run h.sound batch
      refine ⟨⟨hsound, fun later hlater => h.foreign later (List.mem_cons_of_mem _ hlater)⟩, ?_⟩
      exact fun t ht => halone t fun a ha => h.foreign batch List.mem_cons_self a ha t ht

/-- The others have their turn, and the task takes a step for `t`. -/
theorem Ready.turn (h : s.Ready lo ln mine) (ht : mine t) {traffic : Traffic ρo ρn Memory}
    (hminds : s.giveWay.traffic.Minds lo ln (some t) traffic)
    (hlog : s.giveWay.traffic.log <+: traffic.log) :
    s.Onward lo ln mine t { s.giveWay with traffic } := by
  obtain ⟨hready, halone⟩ := h.giveWay
  refine ⟨⟨hminds.sound, hready.foreign⟩, ?_, fun u hu hne => ?_⟩
  · obtain ⟨events, hevents, -⟩ := (halone t ht).log
    have hothers : s.traffic.log <+: s.giveWay.traffic.log := ⟨events, hevents.symm⟩
    exact hothers.trans hlog
  · exact (halone u hu).trans (hminds.alone u fun heq => hne (Option.some.inj heq))

/-! ### Uses of the store -/

theorem Ready.onStore (h : s.Ready lo ln mine) (ht : mine t) {α : Type}
    {f : Store ρo ρn Memory → α × Store ρo ρn Memory}
    (hminds : ∀ store : Store ρo ρn Memory, store.IsSound lo ln → store.Minds lo ln t (f store).2) :
    s.Onward lo ln mine t (s.onStore f).2 :=
  h.turn ht (Traffic.minds_store (hminds _ h.giveWay.1.sound) _) (List.prefix_refl _)

/-- A use of the store that lets its own transaction fade at most. -/
theorem Ready.uses (h : s.Ready lo ln mine) (ht : mine t) {α : Type}
    (f : Store ρo ρn Memory → α × Store ρo ρn Memory)
    (hf : ∀ store : Store ρo ρn Memory, store.IsSound lo ln →
      store.Minds lo ln t (f store).2 ∧ store.register.Fades t (f store).2.register) :
    s.Onward lo ln mine t (s.onStore f).2 ∧ s.traffic.Fades t (s.onStore f).2.traffic := by
  obtain ⟨hready, halone⟩ := h.giveWay
  refine ⟨h.onStore ht fun store hsound => (hf store hsound).1, ?_⟩
  exact (halone t ht).fades.trans ⟨(hf _ hready.sound).2, Iff.rfl⟩

/-- A new transaction is pending, if nobody has seen it commit before. -/
theorem Ready.begin (h : s.Ready lo ln mine) (ht : mine t) (hunseen : .committed t ∉ s.traffic.log)
    (σ : Seniority) (lifetime : Nat) :
    s.Onward lo ln mine t (TaskHost.begin t σ lifetime s) ∧
      (TaskHost.begin t σ lifetime s).traffic.IsPending t σ := by
  obtain ⟨-, halone⟩ := h.giveWay
  refine ⟨h.onStore ht fun store hsound => ?_, ?_⟩
  · have hbegin := Store.minds_begin hsound t σ lifetime
    exact hbegin.trans ⟨⟨hbegin.sound.objects, hbegin.sound.names⟩, fun u _ =>
      Store.spares_tick _ 1 u⟩
  · have hfind : (TaskHost.begin t σ lifetime s).traffic.store.register.find t =
        .start t σ (s.giveWay.traffic.store.now + lifetime) := Register.find_start_self _ _
    refine ⟨?_, ?_, ?_, ?_⟩
    · rw [hfind]
      rfl
    · rw [hfind]
      rfl
    · rw [hfind]
      simp [Txn.start]
    · exact fun hin => hunseen ((halone t ht).committed_iff.mp hin)

theorem Ready.cancel (h : s.Ready lo ln mine) (ht : mine t) (cause : AbortCause) :
    s.Onward lo ln mine t (TaskHost.cancel t cause s).2 ∧
      s.traffic.Fades t (TaskHost.cancel t cause s).2.traffic :=
  h.uses ht (·.updateTxn t (·.abort cause)) fun _ hsound =>
    ⟨Store.minds_updateTxn hsound t (·.abort cause),
      Register.fades_update t (Txn.fades_abort _ cause)⟩

/-- **What the task does with the store lets its transaction fade at most.** -/
theorem Ready.act {V : Type} {r : Run V} (h : s.Ready lo ln mine) (ht : mine r.txn)
    {action : TaskAction} (hdata : ∀ call, action ≠ .participate call) :
    s.Onward lo ln mine r.txn (r.act action s).2 ∧
      s.traffic.Fades r.txn (r.act action s).2.traffic := by
  cases action with
  | operate op =>
      refine h.uses ht (·.start r.txn op) fun store hsound => ?_
      obtain ⟨register, hstart, hfades⟩ := store.start_register r.txn op
      refine ⟨Store.minds_start hsound r.txn op, ?_⟩
      rw [hstart]
      exact hfades r.txn
  | participate call => exact absurd rfl (hdata call)
  | describe subject text =>
      refine h.uses ht (fun store => ((), store.describe r.txn subject text)) fun store hsound => ?_
      obtain ⟨hafter, hspares⟩ := Store.spares_describe hsound r.txn subject text
      exact ⟨⟨hafter, fun u _ => hspares u⟩, (hspares r.txn).register⟩
  | cancel cause => exact h.cancel ht cause
  | check =>
      refine h.uses ht (·.checkActive r.txn) fun store hsound => ?_
      exact ⟨Store.minds_updateTxn hsound r.txn (·.checkActive store.now),
        Register.fades_update r.txn (Txn.fades_checkActive _ _)⟩
  | fail fault => exact ⟨h.onward _, .refl _ _, Iff.rfl⟩

theorem Ready.step (h : s.Ready lo ln mine) (ht : mine t) (stage : Stage) :
    s.Onward lo ln mine t (TaskHost.step t stage s).2 ∧
      s.traffic.Fades t (TaskHost.step t stage s).2.traffic :=
  h.uses ht (·.step t stage) fun _ hsound => Store.minds_step hsound t stage

/-! ### Participant calls -/

/-- A participant call comes to an answer; what its steps keep, whatever the others do in between,
holds of the answer. -/
theorem Ready.participate (h : s.Ready lo ln mine) (ht : mine t) {call : ParticipantCall}
    {P : Traffic ρo ρn Memory → ParticipantStage → Prop} (hstart : P s.traffic (.enter call))
    (halone : ∀ {w w' stage}, P w stage → w.LeavesAlone lo ln t w' → P w' stage)
    (hstep : ∀ {w stage}, w.store.IsSound lo ln → P w stage → 0 < stage.stepsLeft →
      P (w.proceedParticipation t call stage) (w.store.participantStep t stage).1) :
    s.Onward lo ln mine t (s.participate t call).2 ∧
      P (s.participate t call).2.traffic (.ended (s.participate t call).1) := by
  have hsteps : ∀ n stage (s : Contended ρo ρn), stage.stepsLeft ≤ n → s.Ready lo ln mine →
      P s.traffic stage →
      s.Onward lo ln mine t (s.participantSteps t call n stage).2 ∧
        (s.participantSteps t call n stage).1.stepsLeft = 0 ∧
        P (s.participantSteps t call n stage).2.traffic (s.participantSteps t call n stage).1 := by
    intro n
    induction n with
    | zero => exact fun stage s hn h hP => ⟨h.onward t, Nat.le_zero.mp hn, hP⟩
    | succ n ih =>
        intro stage s hn h hP
        simp only [participantSteps, participantStep]
        split
        · rename_i hleft
          obtain ⟨hready, hothers⟩ := h.giveWay
          have hless := s.giveWay.traffic.store.stepsLeft_participantStep t stage
          have hturn := h.turn ht (Traffic.minds_proceedParticipation hready.sound t call stage)
            (List.prefix_append _ _)
          obtain ⟨hon, hdone, hend⟩ := ih _ _ (by omega) hturn.ready
            (hstep hready.sound (halone hP (hothers t ht)) hleft)
          exact ⟨hturn.trans hon, hdone, hend⟩
        · exact ih stage s (by omega) h hP
  obtain ⟨hon, hdone, hend⟩ := hsteps _ (.enter call) s (Nat.le_refl _) h hstart
  refine ⟨hon, ?_⟩
  rwa [ParticipantStage.eq_ended hdone] at hend

/-- A commit ends in a committed transaction, or fails and leaves it pending. -/
theorem Ready.commit (h : s.Ready lo ln mine) (ht : mine t) (hpending : s.traffic.IsPending t σ) :
    s.Onward lo ln mine t (TaskHost.participate t .prepareAndCommit s).2 ∧
      (TaskHost.participate t .prepareAndCommit s).2.traffic.Committing t σ
        (.ended (TaskHost.participate t .prepareAndCommit s).1) :=
  h.participate ht (P := fun w stage => w.Committing t σ stage) (.asked hpending)
    (fun hcommitting halone => hcommitting.alone halone)
    (fun _ hcommitting hleft => hcommitting.step hleft)

/-- After a failure nothing is left of the transaction. -/
theorem Ready.cleanUp (h : s.Ready lo ln mine) (ht : mine t) (hpending : s.traffic.IsPending t σ)
    (e : StoreError) :
    s.Onward lo ln mine t (Run.cleanUp e t s) ∧ (Run.cleanUp e t s).traffic.IsGone lo ln t σ := by
  let cause : AbortCause := .requested s!"task failed: {e.message}"
  obtain ⟨hcancel, hfades⟩ := h.cancel ht cause
  have hcancelled := hpending.fades hfades
  have haborted : ((TaskHost.cancel t cause s).2.traffic.store.register.find t).state = .aborted := by
    obtain ⟨-, halone⟩ := h.giveWay
    have hfind : (TaskHost.cancel t cause s).2.traffic.store.register.find t =
        ((s.giveWay.traffic.store.register.find t).abort cause).2 :=
      Register.find_update_self (f := (·.abort cause))
    rw [hfind]
    exact Txn.state_abort (hpending.fades (halone t ht).fades).state cause
  have hclean : Run.cleanUp e t s =
      ((TaskHost.cancel t cause s).2.participate t .abort).2 :=
    if_neg fun hdone => Bool.noConfusion (hcancelled.done.symm.trans hdone)
  obtain ⟨habort, hgone⟩ := hcancel.ready.participate ht
    (P := fun w stage => w.Aborting lo ln t σ stage) (.asked hcancelled haborted)
    (fun haborting halone => haborting.alone halone)
    (fun hsound haborting hleft => haborting.step hsound hleft)
  rw [hclean]
  refine ⟨hcancel.trans habort, ?_⟩
  cases hgone with
  | ended hgone => exact hgone

end Contended

end ObjectStore
