/-
What an attempt does to its own transaction.

Until its commit an attempt lets its transaction fade at most.  A commit that succeeds has carried the
writes out and has left the transaction committed; one that fails leaves it as any failure does.  An
abort at the store finds the transaction aborted, makes the participant done, and leaves neither
writes nor anything that a reporter keeps.

Others may act between any two steps of a commit or an abort.  `Committing` and `Aborting` say of each
stage what stays true all the same; each has one lemma for the others and one for a step.
-/
import ObjectStore.Proofs.Coordination.Contended

namespace ObjectStore

namespace Txn

theorem beginPrepare_keeps (t : Txn) (now : Nat) :
    (t.beginPrepare now).2.seniority = t.seniority ∧ (t.beginPrepare now).2.done = t.done ∧
      ((t.beginPrepare now).2.state = .committed → t.state = .committed) := by
  rcases t.beginPrepare_cases now with ⟨hok, -⟩ | ⟨e, -, herror⟩ | ⟨hlate, -⟩
  · simp [hok]
  · simp [herror]
  · simp [hlate, toAborted]

theorem beginParticipantAbort_of_aborted {t : Txn} (hstate : t.state = .aborted)
    (hdone : t.done = false) : t.beginParticipantAbort = (.ok (), { t with done := true }) := by
  simp [beginParticipantAbort, hstate, hdone]

end Txn

namespace Traffic

variable {ρo ρn : Type} {w w' w'' : Traffic ρo ρn Memory} {t : TxnId} {σ : Seniority}

/-! ### Where a transaction stands -/

/-- Nothing has happened to a transaction, but that it may have been aborted. -/
structure Fades (w : Traffic ρo ρn Memory) (t : TxnId) (w' : Traffic ρo ρn Memory) : Prop where
  register : w.store.register.Fades t w'.store.register
  committed : .committed t ∈ w'.log ↔ .committed t ∈ w.log

theorem Fades.trans (h : w.Fades t w') (h' : w'.Fades t w'') : w.Fades t w'' :=
  ⟨h.register.trans h'.register, h'.committed.trans h.committed⟩

/-- The transaction has a seniority, and nobody has finished it. -/
structure IsPending (w : Traffic ρo ρn Memory) (t : TxnId) (σ : Seniority) : Prop where
  seniority : (w.store.register.find t).seniority = σ
  done : (w.store.register.find t).done = false
  state : (w.store.register.find t).state ≠ .committed
  unseen : .committed t ∉ w.log

/-- The transaction has been committed. -/
structure IsCommitted (w : Traffic ρo ρn Memory) (t : TxnId) (σ : Seniority) : Prop where
  seniority : (w.store.register.find t).seniority = σ
  done : (w.store.register.find t).done = true
  state : (w.store.register.find t).state = .committed
  seen : .committed t ∈ w.log

/-- The transaction has been aborted at the store. -/
structure IsAborted (w : Traffic ρo ρn Memory) (t : TxnId) (σ : Seniority) : Prop where
  seniority : (w.store.register.find t).seniority = σ
  done : (w.store.register.find t).done = true
  state : (w.store.register.find t).state = .aborted
  /-- The backend has not carried its writes out. -/
  unseen : .committed t ∉ w.log

theorem IsPending.fades (h : w.IsPending t σ) (hfades : w.Fades t w') : w'.IsPending t σ where
  seniority := hfades.register.seniority.trans h.seniority
  done := hfades.register.done.trans h.done
  state := fun hstate => h.state (hfades.register.committed_iff.mp hstate)
  unseen := fun hin => h.unseen (hfades.committed.mp hin)

theorem IsCommitted.fades (h : w.IsCommitted t σ) (hfades : w.Fades t w') : w'.IsCommitted t σ where
  seniority := hfades.register.seniority.trans h.seniority
  done := hfades.register.done.trans h.done
  state := hfades.register.committed_iff.mpr h.state
  seen := hfades.committed.mpr h.seen

theorem IsAborted.fades (h : w.IsAborted t σ) (hfades : w.Fades t w') : w'.IsAborted t σ where
  seniority := hfades.register.seniority.trans h.seniority
  done := hfades.register.done.trans h.done
  state := hfades.register.aborted h.state
  unseen := fun hin => h.unseen (hfades.committed.mp hin)

variable [Reporter ρo ObjectId] [Reporter ρn NameKey]
variable {lo : ReporterLaws ρo} {ln : ReporterLaws ρn}

theorem LeavesAlone.fades (h : w.LeavesAlone lo ln t w') : w.Fades t w' :=
  ⟨h.store.register, h.committed_iff⟩

/-- The transaction has been aborted at the store, and nothing is left of it: it has no writes, and no
reporter keeps anything of it. -/
structure IsGone (lo : ReporterLaws ρo) (ln : ReporterLaws ρn) (w : Traffic ρo ρn Memory)
    (t : TxnId) (σ : Seniority) : Prop extends w.IsAborted t σ where
  writes : w.store.backend.pending.get? t = none
  objects : lo.Lacks w.store.objects t
  names : ln.Lacks w.store.names t

theorem IsGone.alone (h : w.IsGone lo ln t σ) (halone : w.LeavesAlone lo ln t w') :
    w'.IsGone lo ln t σ :=
  ⟨h.toIsAborted.fades halone.fades, halone.store.writes h.writes, halone.store.objects h.objects,
    halone.store.names h.names⟩

/-! ### Commits -/

/-- How a commit of `t` stands. -/
inductive Committing (w : Traffic ρo ρn Memory) (t : TxnId) (σ : Seniority) : ParticipantStage → Prop
  | asked (h : w.IsPending t σ) : Committing w t σ (.enter .prepareAndCommit)
  | prepared (h : w.IsPending t σ) : Committing w t σ (.backend .prepareAndCommit)
  /-- The writes have been carried out, whatever may have happened to the status since. -/
  | carried {reply : Reply} (hseniority : (w.store.register.find t).seniority = σ)
    (hseen : .committed t ∈ w.log) : Committing w t σ (.committed reply)
  | releasesObjects {reply : Reply} (h : w.IsCommitted t σ) :
    Committing w t σ (.releaseObjects (.ok reply))
  | releasesNames {reply : Reply} (h : w.IsCommitted t σ) :
    Committing w t σ (.releaseNames (.ok reply))
  | failing {e : StoreError} (h : w.IsPending t σ) : Committing w t σ (.failing e)
  | succeeded {reply : Reply} (h : w.IsCommitted t σ) : Committing w t σ (.ended (.ok reply))
  | failed {e : StoreError} (h : w.IsPending t σ)
    (hseen : .participated t .prepareAndCommit (.error e) ∈ w.log) :
    Committing w t σ (.ended (.error e))

theorem Committing.alone {stage : ParticipantStage} (h : w.Committing t σ stage)
    (halone : w.LeavesAlone lo ln t w') : w'.Committing t σ stage := by
  have hfades := halone.fades
  cases h with
  | asked h => exact .asked (h.fades hfades)
  | prepared h => exact .prepared (h.fades hfades)
  | carried hseniority hseen =>
      exact .carried (hfades.register.seniority.trans hseniority) (hfades.committed.mpr hseen)
  | releasesObjects h => exact .releasesObjects (h.fades hfades)
  | releasesNames h => exact .releasesNames (h.fades hfades)
  | failing h => exact .failing (h.fades hfades)
  | succeeded h => exact .succeeded (h.fades hfades)
  | failed h hseen => exact .failed (h.fades hfades) (halone.mem_log hseen)

/-- A step after which the backend has not just committed shows no commit. -/
theorem committed_proceedParticipation {call : ParticipantCall} {stage : ParticipantStage}
    (hstage : ∀ reply, (w.store.participantStep t stage).1 ≠ .committed reply) :
    .committed t ∈ (w.proceedParticipation t call stage).log ↔ .committed t ∈ w.log := by
  show .committed t ∈ w.log ++ _ ↔ _
  rw [List.mem_append, or_iff_left]
  intro hin
  obtain ⟨reply, hreply⟩ := (Event.committed_mem_ofParticipantStep hin).2
  exact hstage reply hreply

/-- A step of a participant call lets its transaction fade, unless it sets out to finish it. -/
theorem fades_proceedParticipation {call : ParticipantCall} {stage : ParticipantStage}
    (hregister : w.store.register.Fades t (w.store.participantStep t stage).2.register)
    (hstage : ∀ reply, (w.store.participantStep t stage).1 ≠ .committed reply) :
    w.Fades t (w.proceedParticipation t call stage) :=
  ⟨hregister, committed_proceedParticipation hstage⟩

theorem IsPending.commits_enter (h : w.IsPending t σ) :
    (w.proceedParticipation t .prepareAndCommit (.enter .prepareAndCommit)).Committing t σ
      (w.store.participantStep t (.enter .prepareAndCommit)).1 := by
  obtain ⟨stage, hstage, hstep⟩ := w.store.participantStep_enter t .prepareAndCommit
  have hpending :
      (w.proceedParticipation t .prepareAndCommit (.enter .prepareAndCommit)).IsPending t σ := by
    have hfind :
        (w.proceedParticipation t .prepareAndCommit (.enter .prepareAndCommit)).store.register.find t =
          ((w.store.register.find t).beginPrepare w.store.now).2 := by
      show (w.store.participantStep t (.enter .prepareAndCommit)).2.register.find t = _
      rw [hstep]
      exact Register.find_update_self (f := (·.beginPrepare w.store.now))
    obtain ⟨hseniority, hdone, hstate⟩ := (w.store.register.find t).beginPrepare_keeps w.store.now
    refine ⟨?_, ?_, ?_, ?_⟩
    · rw [hfind, hseniority, h.seniority]
    · rw [hfind, hdone, h.done]
    · rw [hfind]
      exact fun hcommitted => h.state (hstate hcommitted)
    · rw [committed_proceedParticipation]
      · exact h.unseen
      · intro reply
        rw [hstep]
        rcases hstage with ⟨rfl, -⟩ | ⟨e, rfl, -⟩ <;> simp
  rw [hstep]
  rcases hstage with ⟨rfl, -⟩ | ⟨e, rfl, -⟩
  · exact .prepared hpending
  · exact .failing hpending

/-- The call of the backend: either it commits or the commit fails. -/
theorem IsPending.commits_backend (h : w.IsPending t σ) :
    (w.proceedParticipation t .prepareAndCommit (.backend .prepareAndCommit)).Committing t σ
      (w.store.participantStep t (.backend .prepareAndCommit)).1 := by
  have hnoabort : ParticipantCall.prepareAndCommit ≠ .abort := by simp
  obtain ⟨backend, hends⟩ := w.store.callBackend_cases t hnoabort
  have hstep : w.store.participantStep t (.backend .prepareAndCommit) =
      w.store.callBackend t .prepareAndCommit := rfl
  rcases hends with ⟨e, -, hcall⟩ | ⟨hother, -⟩ | hcall
  · rw [← hstep] at hcall
    rw [hcall]
    refine .failing (h.fades (fades_proceedParticipation ?_ ?_))
    · rw [hcall]
      exact .refl _ t
    · simp [hcall]
  · cases hother
  · rw [← hstep] at hcall
    have hlog : (w.proceedParticipation t .prepareAndCommit (.backend .prepareAndCommit)).log =
        w.log ++ [.committed t] := by
      simp only [proceedParticipation, hcall]
      rfl
    rw [hcall]
    refine .carried ?_ ?_
    · show ((w.store.participantStep t (.backend .prepareAndCommit)).2.register.find t).seniority = σ
      rw [hcall]
      exact h.seniority
    · rw [hlog]
      exact List.mem_append_right _ List.mem_cons_self

/-- **A step of a commit.** -/
theorem Committing.step {stage : ParticipantStage} (h : w.Committing t σ stage)
    (hleft : 0 < stage.stepsLeft) :
    (w.proceedParticipation t .prepareAndCommit stage).Committing t σ
      (w.store.participantStep t stage).1 := by
  cases h with
  | asked h => exact h.commits_enter
  | prepared h => exact h.commits_backend
  | carried hseniority hseen =>
      have hfind : (w.store.register.update t fun txn => ((), txn.completeCommit)).2.find t =
          (w.store.register.find t).completeCommit := Register.find_update_self
      refine .releasesObjects ⟨?_, ?_, ?_, List.mem_append_left _ hseen⟩
      · exact (congrArg Txn.seniority hfind).trans hseniority
      · exact congrArg Txn.done hfind
      · exact congrArg Txn.state hfind
  | releasesObjects h =>
      exact .releasesNames (h.fades (fades_proceedParticipation (.refl _ t) (by
        simp [Store.participantStep])))
  | releasesNames h =>
      exact .succeeded (h.fades (fades_proceedParticipation (.refl _ t) (by
        simp [Store.participantStep, ParticipantStage.ofResult])))
  | @failing e h =>
      refine .failed (h.fades (fades_proceedParticipation ?_ ?_)) ?_
      · exact Register.fades_noteFailure _ t e t
      · simp [Store.participantStep]
      · exact List.mem_append_right _ List.mem_cons_self
  | succeeded h => exact absurd hleft (by simp [ParticipantStage.stepsLeft])
  | failed h hseen => exact absurd hleft (by simp [ParticipantStage.stepsLeft])

/-! ### Aborts -/

/-- How an abort of `t` stands that has found the transaction aborted. -/
inductive Aborting (lo : ReporterLaws ρo) (ln : ReporterLaws ρn) (w : Traffic ρo ρn Memory)
    (t : TxnId) (σ : Seniority) : ParticipantStage → Prop
  | asked (h : w.IsPending t σ) (haborted : (w.store.register.find t).state = .aborted) :
    Aborting lo ln w t σ (.enter .abort)
  | noted (h : w.IsAborted t σ) : Aborting lo ln w t σ (.backend .abort)
  | discarded {result : Except StoreError Reply} (h : w.IsAborted t σ)
    (hwrites : w.store.backend.pending.get? t = none) : Aborting lo ln w t σ (.releaseObjects result)
  | released {result : Except StoreError Reply} (h : w.IsAborted t σ)
    (hwrites : w.store.backend.pending.get? t = none) (hobjects : lo.Lacks w.store.objects t) :
    Aborting lo ln w t σ (.releaseNames result)
  | failing {e : StoreError} (h : w.IsGone lo ln t σ) : Aborting lo ln w t σ (.failing e)
  | ended {result : Except StoreError Reply} (h : w.IsGone lo ln t σ) :
    Aborting lo ln w t σ (.ended result)

theorem Aborting.alone {stage : ParticipantStage} (h : w.Aborting lo ln t σ stage)
    (halone : w.LeavesAlone lo ln t w') : w'.Aborting lo ln t σ stage := by
  have hfades := halone.fades
  cases h with
  | asked h haborted => exact .asked (h.fades hfades) (hfades.register.aborted haborted)
  | noted h => exact .noted (h.fades hfades)
  | discarded h hwrites => exact .discarded (h.fades hfades) (halone.store.writes hwrites)
  | released h hwrites hobjects =>
      exact .released (h.fades hfades) (halone.store.writes hwrites) (halone.store.objects hobjects)
  | failing h => exact .failing (h.alone halone)
  | ended h => exact .ended (h.alone halone)

/-- The look at the status with which an abort begins makes the participant done. -/
theorem IsPending.aborts_enter (h : w.IsPending t σ)
    (haborted : (w.store.register.find t).state = .aborted) :
    (w.proceedParticipation t .abort (.enter .abort)).Aborting lo ln t σ
      (w.store.participantStep t (.enter .abort)).1 := by
  have hlook := Txn.beginParticipantAbort_of_aborted haborted h.done
  have henter : (w.store.enter t .abort).1 = .ok () := congrArg Prod.fst hlook
  obtain ⟨stage, hstage, hstep⟩ := w.store.participantStep_enter t .abort
  rcases hstage with ⟨rfl, -⟩ | ⟨e, rfl, herror⟩
  · have hfind : (w.proceedParticipation t .abort (.enter .abort)).store.register.find t =
        { w.store.register.find t with done := true } := by
      show (w.store.participantStep t (.enter .abort)).2.register.find t = _
      rw [hstep]
      exact Register.find_update_self.trans (congrArg Prod.snd hlook)
    rw [hstep]
    refine .noted ⟨?_, ?_, ?_, ?_⟩
    · rw [hfind, ← h.seniority]
    · rw [hfind]
    · rw [hfind, ← haborted]
    · rw [committed_proceedParticipation (by simp [hstep])]
      exact h.unseen
  · rw [henter] at herror
    cases herror

/-- **A step of an abort.** -/
theorem Aborting.step {stage : ParticipantStage} (h : w.Aborting lo ln t σ stage)
    (hsound : w.store.IsSound lo ln) (hleft : 0 < stage.stepsLeft) :
    (w.proceedParticipation t .abort stage).Aborting lo ln t σ (w.store.participantStep t stage).1 := by
  cases h with
  | asked h haborted => exact h.aborts_enter haborted
  | noted h =>
      have hstep := w.store.participantStep_abort t
      have hstore : (w.proceedParticipation t .abort (.backend .abort)).store =
          { w.store with backend := w.store.backend.discard t } := congrArg Prod.snd hstep
      have hfades : w.Fades t (w.proceedParticipation t .abort (.backend .abort)) := by
        refine fades_proceedParticipation ?_ (by simp [hstep])
        rw [hstep]
        exact .refl _ t
      rw [hstep]
      refine .discarded (h.fades hfades) ?_
      rw [hstore]
      exact Memory.pending_discard_self _ t
  | discarded h hwrites =>
      refine .released (h.fades (fades_proceedParticipation (.refl _ t) ?_)) hwrites ?_
      · simp [Store.participantStep]
      · exact (lo.finish t hsound.objects).2.1
  | @released result h hwrites hobjects =>
      have hgone : (w.proceedParticipation t .abort (.releaseNames result)).IsGone lo ln t σ := by
        refine ⟨h.fades (fades_proceedParticipation (.refl _ t) ?_), hwrites, hobjects, ?_⟩
        · cases result <;> simp [Store.participantStep, ParticipantStage.ofResult]
        · exact (ln.finish t hsound.names).2.1
      cases result with
      | error e => exact .failing hgone
      | ok reply => exact .ended hgone
  | @failing e h =>
      refine .ended ⟨h.toIsAborted.fades (fades_proceedParticipation ?_ ?_), h.writes, h.objects,
        h.names⟩
      · exact Register.fades_noteFailure _ t e t
      · simp [Store.participantStep]
  | ended h => exact absurd hleft (by simp [ParticipantStage.stepsLeft])

end Traffic

end ObjectStore
