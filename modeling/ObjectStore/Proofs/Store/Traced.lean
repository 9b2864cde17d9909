/-
What links transcripts and locks.

`Traced` says of a transaction that every name in its transcript, and every name that it has
written, was accessed before, and to write where it was written.  So whatever a transaction has
learned of the names, or is about to change, it has locked.
-/
import ObjectStore.Proofs.Store.Beside

namespace ObjectStore

theorem Stage.Grounded.mono {stage : Stage} {p q : Access → Prop} (h : stage.Grounded p)
    (hpq : ∀ access, p access → q access) : stage.Grounded q := by
  cases stage with
  | act plan => exact fun needed hneeded => hpq needed (h needed hneeded)
  | _ => exact h

section Reported

variable {t : TxnId} {state : TxnState} {access : Access} {plan : Plan} {turn : LockTurn TxnId}
variable {stage' : Stage} {op : Operation}

/-- A report is about the operation that has been begun, -/
theorem Reported.fits (h : Reported t state access plan turn stage') (hfits : plan.Fits op) :
    stage'.Fits op := by
  cases h with
  | allowed => exact hfits
  | waiting => exact hfits
  | timedOut => exact trivial
  | late => exact trivial

/-- a plan that it lets pass comes after the access that was reported, -/
theorem Reported.grounded {p : Access → Prop} (h : Reported t state access plan turn stage')
    (hgrounded : (Stage.report access plan).Grounded p)
    (hallowed : ∀ plan', stage' = .act plan' → p access) : stage'.Grounded p := by
  cases h with
  | allowed =>
      intro needed hneeded
      rw [hgrounded needed hneeded]
      exact hallowed plan rfl
  | waiting => exact hgrounded
  | timedOut => exact trivial
  | late => exact trivial

/-- and it does not decide an answer that tells anything. -/
theorem Reported.transcript (h : Reported t state access plan turn stage') :
    stage'.transcript op = (Stage.report access plan).transcript op ∨
      stage'.transcript op = [] := by
  cases h with
  | allowed => exact Or.inl rfl
  | waiting => exact Or.inl rfl
  | timedOut => exact Or.inr (finding_error (by simp))
  | late e _ he => exact Or.inr (finding_error he)

end Reported

namespace Traffic

variable {w w' : LockingTraffic Memory} {t u : TxnId}

/-- What is true of the call, the transcript and the writes of a transaction. -/
structure Traced (w : LockingTraffic Memory) (t : TxnId) : Prop where
  fits : ∀ op stage, w.calls.get? t = some (.operation op stage) →
    stage.Fits op ∧ stage.Grounded fun access => .accessed t access ∈ w.log
  about : ∀ entry ∈ tentative w.calls w.log t, ∀ name, entry.1.name? = some name →
    ∃ mode, .accessed t (.name (.ofName name) mode) ∈ w.log
  written : ∀ name, ((w.store.backend.writes t).names.get? name).isSome = true →
    .accessed t (.name (.ofName name) .write) ∈ w.log

namespace Traced

theorem new (shards : Nat) (t : TxnId) : Traced (Traffic.new shards Memory.empty) t where
  fits := fun _ _ h => absurd h (by simp [Traffic.new])
  about := fun _ h => absurd h (by simp [Traffic.new, tentative, transcript, Call.transcript])
  written := fun _ h => absurd h (by simp [Traffic.new, Store.new, Memory.writes, Memory.empty,
    WriteSet.empty])

theorem goesOn (h : Traced w t)
    (hfits : ∀ op stage, w'.calls.get? t = some (.operation op stage) →
      stage.Fits op ∧ stage.Grounded fun access => .accessed t access ∈ w'.log)
    (hlog : ∀ access, .accessed t access ∈ w.log → .accessed t access ∈ w'.log)
    (habout : ∀ entry ∈ tentative w'.calls w'.log t, entry ∈ tentative w.calls w.log t ∨
      ∃ mode, ∀ name, entry.1.name? = some name → .accessed t (.name (.ofName name) mode) ∈ w'.log)
    (hwritten : ∀ name, ((w'.store.backend.writes t).names.get? name).isSome = true →
      ((w.store.backend.writes t).names.get? name).isSome = true ∨
        .accessed t (.name (.ofName name) .write) ∈ w'.log) : Traced w' t where
  fits := hfits
  about := by
    intro entry hentry name hname
    rcases habout entry hentry with hold | ⟨mode, hnew⟩
    · obtain ⟨mode, hmode⟩ := h.about entry hold name hname
      exact ⟨mode, hlog _ hmode⟩
    · exact ⟨mode, hnew name hname⟩
  written := fun name hname =>
    (hwritten name hname).elim (fun hold => hlog _ (h.written name hold)) id

theorem beside (h : Traced w t) (hbeside : Beside w w' t) : Traced w' t := by
  refine h.goesOn ?_ (fun _ => hbeside.accessed) ?_ (fun _ hname => Or.inl (hbeside.written hname))
  · intro op stage hcall
    rw [hbeside.call] at hcall
    obtain ⟨hfits, hgrounded⟩ := h.fits op stage hcall
    exact ⟨hfits, hgrounded.mono fun _ => hbeside.accessed⟩
  · intro entry hentry
    rw [hbeside.tentative] at hentry
    exact Or.inl hentry

theorem operation (h : Traced w t) {op : Operation} {stage stage' : Stage}
    {store : LockingStore Memory} (hcall : w.calls.get? t = some (.operation op stage))
    (hstep : OperationStep w.store t stage stage' store) :
    Traced
      { store
        calls := w.calls.change t (Call.ofStage op stage')
        log := w.log ++ Event.ofStep t op stage stage' } t := by
  obtain ⟨hfits, hgrounded⟩ := h.fits op stage hcall
  have hlog : ∀ access, .accessed t access ∈ w.log →
      .accessed t access ∈ w.log ++ Event.ofStep t op stage stage' :=
    fun _ => List.mem_append_left _
  have hgrounded' := hgrounded.mono hlog
  -- The call that is left is at the new stage.
  have hleft : stage'.Fits op →
      (stage'.Grounded fun access => .accessed t access ∈ w.log ++ Event.ofStep t op stage stage') →
      ∀ op' stage'', (w.calls.change t (Call.ofStage op stage')).get? t =
          some (.operation op' stage'') →
        stage''.Fits op' ∧ stage''.Grounded fun access =>
          .accessed t access ∈ w.log ++ Event.ofStep t op stage stage' := by
    intro hfits' hgrounded' op' stage'' hcall'
    rw [FinMap.get?_change_self] at hcall'
    obtain ⟨rfl, rfl⟩ := Call.ofStage_eq hcall'
    exact ⟨hfits', hgrounded'⟩
  have hquiet : stage'.transcript op = stage.transcript op ∨ stage'.transcript op = [] →
      ∀ entry ∈ tentative (w.calls.change t (Call.ofStage op stage'))
          (w.log ++ Event.ofStep t op stage stage') t, entry ∈ tentative w.calls w.log t ∨
        ∃ mode, ∀ name, entry.1.name? = some name →
          .accessed t (.name (.ofName name) mode) ∈ w.log ++ Event.ofStep t op stage stage' :=
    fun htranscript _ hentry => Or.inl (mem_tentative_of_step hcall htranscript hentry)
  have hreported : ∀ {access plan turn}, stage = .report access plan →
      Reported t (w.store.register.stateOf t) access plan turn stage' →
      stage'.Fits op ∧
        (stage'.Grounded fun access' =>
          .accessed t access' ∈ w.log ++ Event.ofStep t op stage stage') ∧
        (stage'.transcript op = stage.transcript op ∨ stage'.transcript op = []) := by
    rintro access plan turn rfl hturn
    refine ⟨hturn.fits hfits, hturn.grounded hgrounded' ?_, hturn.transcript⟩
    rintro plan' rfl
    exact List.mem_append_right _ (by simp [Event.ofStep])
  cases hstep with
  | reportsObject _ hstage =>
      obtain ⟨hfits', hgrounded', htranscript⟩ := hreported rfl hstage
      exact h.goesOn (hleft hfits' hgrounded') hlog (hquiet htranscript) (fun _ => Or.inl)
  | reportsName _ hstage =>
      obtain ⟨hfits', hgrounded', htranscript⟩ := hreported rfl hstage
      exact h.goesOn (hleft hfits' hgrounded') hlog (hquiet htranscript) (fun _ => Or.inl)
  | wakes => exact h.goesOn (hleft hfits hgrounded') hlog (hquiet (Or.inl rfl)) (fun _ => Or.inl)
  | fails => exact h.goesOn (hleft trivial trivial) hlog (hquiet (Or.inl rfl)) (fun _ => Or.inl)
  | @acts plan _ backend hact =>
      have hacted := acted_of_act hact
      have hleft' := hleft (hacted.fits hfits) (hacted.grounded _)
      rcases hacted.transcript_cases hfits with ⟨name, hname, hpoint, hacts⟩ | ⟨hkeeps, htranscript⟩
      · obtain ⟨mode, haccess⟩ := op.nameAccess?_of_name? hname
        have hneeded := plan.access?_of_point? hpoint
        refine h.goesOn hleft' hlog ?_ ?_
        · intro entry hentry
          rw [tentative_step] at hentry
          rw [tentative_of_operation hcall]
          rcases List.mem_append.mp hentry with hin | hin
          · exact Or.inl (List.mem_append_left _ hin)
          · refine Or.inr ⟨mode, ?_⟩
            intro name' hname'
            unfold Stage.transcript at hin
            rw [hacts.outcome] at hin
            rw [mem_finding hin, hname] at hname'
            cases hname'
            exact hlog _ (hgrounded _ (hneeded.trans haccess))
        · intro name' hname'
          exact (hacts.written name' hname').imp_right fun hwrite =>
            hlog _ (hgrounded _ (hneeded.trans hwrite))
      · refine h.goesOn hleft' hlog (hquiet (htranscript.imp_right And.right)) ?_
        intro name hname
        refine Or.inl ?_
        rwa [hkeeps.written] at hname

/-- An operation that begins has nothing to add to the transcript. -/
theorem transcript_of_starts {op : Operation} {stage : Stage} {active : Prop}
    (hstage : stage = op.firstStage ∧ active ∨
      ∃ e, stage = .failing e ∧ ∀ name, e ≠ .nameNotBound name) :
    Call.transcript (some (.operation op stage)) = [] := by
  rcases hstage with ⟨rfl, -⟩ | ⟨e, rfl, he⟩
  · show Stage.transcript op op.firstStage = []
    unfold Stage.transcript
    rw [Stage.outcome?_firstStage]
  · exact finding_error he

theorem own (h : Traced w t) (hown : w.OwnMove t w') : Traced w' t := by
  cases hown with
  | begins => exact ⟨h.fits, h.about, h.written⟩
  | @starts op stage register hfree _ _ hstage =>
      have hnothing := transcript_of_starts hstage
      refine h.goesOn ?_ (fun _ => id) ?_ (fun _ => Or.inl)
      · intro op' stage' hcall
        rw [FinMap.get?_insert_self] at hcall
        cases hcall
        rcases hstage with ⟨rfl, -⟩ | ⟨e, rfl, -⟩
        · exact ⟨Stage.fits_firstStage op, Stage.grounded_firstStage _ op⟩
        · exact ⟨trivial, trivial⟩
      · intro entry hentry
        rw [tentative_insert hfree hnothing] at hentry
        exact Or.inl hentry
  | participates hfree =>
      refine h.goesOn ?_ (fun _ => id) ?_ (fun _ => Or.inl)
      · intro op stage hcall
        rw [FinMap.get?_insert_self] at hcall
        cases hcall
      · intro entry hentry
        rw [tentative_insert hfree rfl] at hentry
        exact Or.inl hentry
  | operation hcall hstep => exact h.operation hcall hstep
  | @participation call stage stage' store hcall hstep =>
      refine h.goesOn ?_ (fun _ => List.mem_append_left _) ?_ ?_
      · intro op stage'' hcall'
        rw [FinMap.get?_change_self] at hcall'
        cases stage' <;> cases hcall'
      · intro entry hentry
        rw [tentative_participantStep hcall] at hentry
        exact Or.inl hentry
      · intro name hname
        cases hstep with
        | calls hcalled => exact Or.inl ((called_of_callBackend hcalled).written hname)
        | _ => exact Or.inl hname

end Traced

end Traffic

end ObjectStore
