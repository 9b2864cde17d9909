/-
Transactions that may yet commit.

A transaction is live as long as it is open, the backend serves it, and its call is not about to
abort it.  Whatever a live transaction does it has done alive, and there is little that it can have
done: `LiveStep` lists what its operations come to, and its participant calls change no names but by
a commit, after which it is not live any more.

`Sound` collects what all this rests on.
-/
import ObjectStore.Proofs.Store.Consistency
import ObjectStore.Proofs.Store.Traced

namespace ObjectStore

/-- Whether the transaction of a call is to end without a commit, or with one that has already been
carried out. -/
def Call.isSpent : Option Call → Bool
  | some (.operation _ (.failing e)) => e.isAbort
  | some (.participation _ (.committed _)) => true
  | _ => false

namespace Traffic

variable {w w' : LockingTraffic Memory} {t u : TxnId}

/-- A transaction that may yet commit. -/
structure Live (w : LockingTraffic Memory) (t : TxnId) : Prop where
  isOpen : w.store.register.isOpen t = true
  isServed : w.store.backend.isShutDown = false
  notSpent : Call.isSpent (w.calls.get? t) = false

/-- What the steps of a run rest on. -/
structure Sound (w : LockingTraffic Memory) : Prop where
  retains : Retains w
  traced : ∀ t, Traced w t
  consistent : ∀ t, Consistent w t

namespace Sound

theorem new (shards : Nat) : Sound (Traffic.new shards Memory.empty) where
  retains := .new shards Memory.empty
  traced := Traced.new shards
  consistent := Consistent.new shards

theorem move (h : Sound w) (hmove : w.Move w') : Sound w' where
  retains := h.retains.move hmove
  traced := fun t => (hmove.beside_or_own t).elim (h.traced t).beside (h.traced t).own
  consistent := fun t =>
    (hmove.beside_or_own t).elim (h.consistent t).beside ((h.consistent t).own h.retains.orderly)

theorem run (shards : Nat) (actions : List StoreAction) :
    Sound ((Traffic.new shards Memory.empty).run actions) :=
  run_induction (new shards) (fun w a h => h.move (move_perform w a)) actions

/-- A transaction that has not begun has learned and written nothing. -/
theorem nothing_of_unknown (h : Sound w) (hnew : w.store.register.isKnown t = false) :
    tentative w.calls w.log t = [] ∧ w.store.backend.binding? t = w.store.backend.names.get? := by
  have hnone : ∀ access, .accessed t access ∉ w.log := by
    intro access hin
    rw [h.retains.orderly.accessed t access hin] at hnew
    exact absurd hnew (by simp)
  constructor
  · refine List.eq_nil_iff_forall_not_mem.mpr fun entry hentry => ?_
    obtain ⟨name, hname⟩ := Option.isSome_iff_exists.mp (isSome_name?_of_mem_tentative hentry)
    obtain ⟨mode, hin⟩ := (h.traced t).about entry hentry name hname
    exact hnone _ hin
  · funext name
    refine Memory.binding?_of_not_written ?_
    by_contra hwritten
    exact hnone _ ((h.traced t).written name (Option.isSome_iff_ne_none.mpr hwritten))

/-- Committing changes no name that another open transaction has locked. -/
theorem names_of_accessed (h : Sound w) (hcommits : Commits w t w') (hu : t ≠ u)
    (hopen : w.store.register.isOpen u = true) {name : Name} {mode : LockMode}
    (haccess : .accessed u (.name (.ofName name) mode) ∈ w.log) :
    w'.store.backend.names.get? name = w.store.backend.names.get? name := by
  obtain ⟨call, called, hcall, hnot⟩ := hcommits.before
  have hprepared := ((h.consistent t).calling call called hcall).resolve_left hnot
  rw [hcommits.names]
  refine Memory.binding?_of_not_written ?_
  by_contra hwritten
  have hwrote := (h.traced t).written name (Option.isSome_iff_ne_none.mpr hwritten)
  have hno := h.retains.agrees hu hwrote (Register.isOpen_iff.mpr (Or.inr hprepared)) haccess hopen
  cases mode <;> simp [Access.conflictsWith, LockMode.conflictsWith] at hno

/-- Nor does it change what that transaction sees there. -/
theorem binding?_of_accessed (h : Sound w) (hcommits : Commits w t w') (hu : t ≠ u)
    (hopen : w.store.register.isOpen u = true)
    (hwrites : w'.store.backend.writes u = w.store.backend.writes u) {name : Name} {mode : LockMode}
    (haccess : .accessed u (.name (.ofName name) mode) ∈ w.log) :
    w'.store.backend.binding? u name = w.store.backend.binding? u name := by
  unfold Memory.binding? FinMap.under?
  rw [hwrites, h.names_of_accessed hcommits hu hopen haccess]

theorem live_of_commits (h : Sound w) (hcommits : Commits w t w') : Live w t := by
  obtain ⟨call, called, hcall, hnot⟩ := hcommits.before
  have hprepared := ((h.consistent t).calling call called hcall).resolve_left hnot
  refine ⟨Register.isOpen_iff.mpr (Or.inr hprepared), hcommits.isOpen, ?_⟩
  rw [hcall]
  rfl

end Sound

namespace Live

theorem of_beside (hbeside : Beside w w' t) (hlive : Live w' t) : Live w t where
  isOpen := by
    have hopen := hlive.isOpen
    rwa [Register.isOpen, hbeside.find_of_isOpen hopen] at hopen
  isServed := by
    have hserved := hlive.isServed
    rcases hbeside.writes with ⟨-, hsame⟩ | ⟨hshut, -⟩
    · rwa [hsame] at hserved
    · rw [hshut] at hserved
      exact absurd hserved (by simp)
  notSpent := by
    have hnot := hlive.notSpent
    rwa [hbeside.call] at hnot

theorem writes_of_beside (hbeside : Beside w w' t) (hlive : Live w' t) :
    w'.store.backend.writes t = w.store.backend.writes t := by
  rcases hbeside.writes with ⟨hsame, -⟩ | ⟨hshut, -⟩
  · exact Memory.writes_congr hsame
  · rw [hlive.isServed] at hshut
    exact absurd hshut (by simp)

/-- Whoever commits is no longer among those that may yet commit. -/
theorem ne_of_commits (hcommits : Commits w u w') (hlive : Live w' t) : u ≠ t := by
  rintro rfl
  obtain ⟨call, reply, hcall⟩ := hcommits.after
  have hnot := hlive.notSpent
  rw [hcall] at hnot
  exact absurd hnot (by simp [Call.isSpent])

theorem of_free (hfree : w.calls.get? t = none) (hopen : w.store.register.isOpen t = true)
    (hserved : w.store.backend.isShutDown = false) : Live w t := by
  refine ⟨hopen, hserved, ?_⟩
  rw [hfree]
  rfl

/-- What a step of an operation of a live transaction can have been. -/
inductive LiveStep (t : TxnId) (m : Memory) : Stage → Stage → Memory → Prop where
  | allowed {access : Access} {plan : Plan} : LiveStep t m (.report access plan) (.act plan) m
  | waits {signal : Signal} {access : Access} {plan : Plan} :
    LiveStep t m (.report access plan) (.waiting signal access plan) m
  | wakes {signal : Signal} {access : Access} {plan : Plan} :
    LiveStep t m (.waiting signal access plan) (.report access plan) m
  | acts {plan : Plan} {stage' : Stage} {m' : Memory} (hacted : Acted t m plan stage' m') :
    LiveStep t m (.act plan) stage' m'
  | fails {e : StoreError} (hkeeps : e.isAbort = false) :
    LiveStep t m (.failing e) (.ended (.error e)) m

/-- **Whoever is live after a step of its operation was so before**, and the step is in the list. -/
theorem operation (hsound : Sound w) {op : Operation} {stage stage' : Stage}
    {store : LockingStore Memory} (hcall : w.calls.get? t = some (.operation op stage))
    (hstep : OperationStep w.store t stage stage' store)
    (hlive : Live
      { store
        calls := w.calls.change t (Call.ofStage op stage')
        log := w.log ++ Event.ofStep t op stage stage' } t) :
    Live w t ∧ LiveStep t w.store.backend stage stage' store.backend := by
  have hopen : w.store.register.isOpen t = true :=
    (after_of_operationStep hstep).opens t (hsound.retains.orderly.called t _ hcall) hlive.isOpen
  have hserved : store.backend.isShutDown = false := hlive.isServed
  have hspent : Call.isSpent (Call.ofStage op stage') = false := by
    have hleft : (w.calls.change t (Call.ofStage op stage')).get? t = Call.ofStage op stage' :=
      FinMap.get?_change_self _ _ _
    exact hleft ▸ hlive.notSpent
  have hlive' : w.store.backend.isShutDown = false →
      (∀ e, stage = .failing e → e.isAbort = false) → Live w t := by
    intro hserved' hno
    refine ⟨hopen, hserved', ?_⟩
    rw [hcall]
    cases stage with
    | failing e => exact hno e rfl
    | _ => rfl
  have hreported : ∀ {access plan turn}, stage = .report access plan →
      Reported t (w.store.register.stateOf t) access plan turn stage' →
      LiveStep t w.store.backend stage stage' w.store.backend := by
    rintro access plan turn rfl hturn
    cases hturn with
    | allowed => exact .allowed
    | waiting signal => exact .waits
    | timedOut => exact absurd hspent (by simp [Call.ofStage, Call.isSpent, StoreError.isAbort])
    | late e hstate =>
        rcases (hsound.consistent t).operating op _ hcall with hactive | haborted | ⟨_, hfailing, -⟩
        · exact absurd hactive hstate
        · rw [Register.isOpen_of_aborted haborted] at hopen
          exact absurd hopen (by simp)
        · exact absurd hfailing (by simp)
  cases hstep with
  | reportsObject _ hstage => exact ⟨hlive' hserved (by simp), hreported rfl hstage⟩
  | reportsName _ hstage => exact ⟨hlive' hserved (by simp), hreported rfl hstage⟩
  | wakes => exact ⟨hlive' hserved (by simp), .wakes⟩
  | acts hact =>
      have hacted := acted_of_act hact
      exact ⟨hlive' (hacted.isShutDown.symm.trans hserved) (by simp), .acts hacted⟩
  | @fails e =>
      have hkeeps : e.isAbort = false := by
        by_contra habort
        have hclosed : (w.store.register.noteFailure t e).isOpen t = false :=
          Register.isOpen_noteFailure (Bool.of_not_eq_false habort)
        exact absurd (hlive.isOpen.symm.trans hclosed) (by simp)
      refine ⟨hlive' hserved ?_, .fails hkeeps⟩
      intro e' he
      cases he
      exact hkeeps

/-- **Whoever is live after a step of a participant call was so before**, and has at most prepared its
writes. -/
theorem participation_backend (hsound : Sound w) {call : ParticipantCall}
    {stage stage' : ParticipantStage} {store : LockingStore Memory}
    (hcall : w.calls.get? t = some (.participation call stage))
    (hstep : ParticipantMove w.store t stage stage' store)
    (hlive : Live
      { store
        calls := w.calls.change t (Call.ofParticipantStage call stage')
        log := w.log ++ Event.ofParticipantStep t call stage stage' } t) :
    Live w t ∧ (store.backend = w.store.backend ∨
      store.backend = w.store.backend.write t fun writes => { writes with prepared := true }) := by
  have hopen : w.store.register.isOpen t = true :=
    (after_of_participantMove hstep).opens t (hsound.retains.orderly.called t _ hcall) hlive.isOpen
  have hserved : store.backend.isShutDown = false := hlive.isServed
  have hspent : Call.isSpent (Call.ofParticipantStage call stage') = false := by
    have hleft : (w.calls.change t (Call.ofParticipantStage call stage')).get? t =
        Call.ofParticipantStage call stage' :=
      FinMap.get?_change_self _ _ _
    exact hleft ▸ hlive.notSpent
  have hlive' : w.store.backend.isShutDown = false → (∀ reply, stage ≠ .committed reply) →
      Live w t := by
    intro hserved' hno
    refine ⟨hopen, hserved', ?_⟩
    rw [hcall]
    cases stage with
    | committed reply => exact absurd rfl (hno reply)
    | _ => rfl
  cases hstep with
  | completes hcommitted =>
      exact absurd (hlive.isOpen.symm.trans (Register.isOpen_of_committed hcommitted)) (by simp)
  | calls hcalled =>
      cases called_of_callBackend hcalled with
      | refused hshut => exact absurd (hserved.symm.trans hshut) (by simp)
      | commits => exact absurd hspent (by simp [Call.ofParticipantStage, Call.isSpent])
      | prepares => exact ⟨hlive' hserved (by simp), Or.inr rfl⟩
      | loses hserved' hpending hunprepared =>
          have hprepared := ((hsound.consistent t).calling call _ hcall).resolve_left (by simp)
          obtain ⟨writes, hwrites, hflag⟩ := (hsound.consistent t).isFlagged
            (fun call' called' hc => by cases hcall.symm.trans hc; simp)
            (fun call' reply hc => by cases hcall.symm.trans hc) hprepared hserved'
          rw [hpending] at hwrites
          cases hwrites
          exact absurd (hunprepared.symm.trans hflag) (by simp)
      | aborts =>
          have hclosed := hsound.retains.orderly.closing t call _ hcall rfl
          exact absurd (hopen.symm.trans hclosed) (by simp)
  | _ => exact ⟨hlive' hserved (by simp), Or.inl rfl⟩

theorem participation (hsound : Sound w) {call : ParticipantCall}
    {stage stage' : ParticipantStage} {store : LockingStore Memory}
    (hcall : w.calls.get? t = some (.participation call stage))
    (hstep : ParticipantMove w.store t stage stage' store)
    (hlive : Live
      { store
        calls := w.calls.change t (Call.ofParticipantStage call stage')
        log := w.log ++ Event.ofParticipantStep t call stage stage' } t) :
    Live w t ∧ w.store.backend.KeepsNames t store.backend := by
  obtain ⟨hwas, hsame | hprepared⟩ := hlive.participation_backend hsound hcall hstep
  · rw [hsame]
    exact ⟨hwas, .refl t _⟩
  · rw [hprepared]
    refine ⟨hwas, rfl, ?_, fun _ hu => Memory.pending_write_of_ne hu, rfl⟩
    rw [Memory.writes_write, if_pos rfl]

end Live

end Traffic

end ObjectStore
