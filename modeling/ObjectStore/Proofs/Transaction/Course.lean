/-
The course of a transaction.

A status is regular if it knows no cause but that of an abort, and if the participant is done with
nothing but what has ended.  `Txn.Course` relates a regular status to what may have become of it:
the state has moved on, if at all, a cause once known is kept, and the participant stays done.

Each function of the status keeps to this course.  Only noting a commit needs more, namely that the
transaction has not been aborted; whoever notes it has to know.
-/
import ObjectStore.Proofs.Transaction.Register

namespace ObjectStore

/-- How the state of a transaction may move. -/
inductive TxnState.MayBecome : TxnState → TxnState → Prop where
  | stays (state : TxnState) : MayBecome state state
  | prepares : MayBecome .active .prepared
  | commits : MayBecome .prepared .committed
  /-- A transaction may be prepared and committed at once. -/
  | commitsAtOnce : MayBecome .active .committed
  | abortsActive : MayBecome .active .aborted
  | abortsPrepared : MayBecome .prepared .aborted

theorem TxnState.MayBecome.trans {a b c : TxnState} (h : MayBecome a b) (h' : MayBecome b c) :
    MayBecome a c := by
  cases h <;> cases h' <;> constructor

namespace Txn

variable {t t' t'' : Txn}

/-- A status that is in order. -/
structure Regular (t : Txn) : Prop where
  /-- Only an abort has a cause. -/
  cause : t.state ≠ .aborted → t.cause = none
  /-- The participant is done only with what has ended. -/
  done : t.done = true → t.state = .committed ∨ t.state = .aborted

/-- `t'` is in order and may be what has become of `t`. -/
structure Course (t t' : Txn) : Prop where
  regular : t'.Regular
  id : t'.id = t.id
  state : t.state.MayBecome t'.state
  /-- The first cause is kept, -/
  cause : ∀ cause, t.cause = some cause → t'.cause = some cause
  /-- and whoever was not aborted without one will not be. -/
  told : (t.state = .aborted → t.cause.isSome = true) →
    t'.state = .aborted → t'.cause.isSome = true
  done : t.done = true → t'.done = true

theorem Course.refl (h : t.Regular) : Course t t :=
  ⟨h, rfl, .stays _, fun _ hcause => hcause, fun htold => htold, fun hdone => hdone⟩

theorem Course.trans (h : Course t t') (h' : Course t' t'') : Course t t'' where
  regular := h'.regular
  id := h'.id.trans h.id
  state := h.state.trans h'.state
  cause := fun cause hcause => h'.cause cause (h.cause cause hcause)
  told := fun htold => h'.told (h.told htold)
  done := fun hdone => h'.done (h.done hdone)

/-- Whoever is aborted stays so. -/
theorem Course.aborted (h : Course t t') (haborted : t.state = .aborted) : t'.state = .aborted := by
  have hstate := h.state
  rw [haborted] at hstate
  generalize t'.state = state at hstate
  cases hstate
  rfl

theorem regular_start (id : TxnId) (seniority : Seniority) (deadline : Nat) :
    (start id seniority deadline).Regular :=
  ⟨fun _ => rfl, fun h => absurd h (by simp [start])⟩

theorem regular_unknown (id : TxnId) : (Register.unknown id).Regular :=
  ⟨fun _ => rfl, fun h => absurd h (by simp [Register.unknown, start])⟩

theorem Regular.of_isOpen (h : t.Regular) (hopen : t.isOpen = true) :
    t.cause = none ∧ t.done = false := by
  have hstate := isOpen_iff.mp hopen
  refine ⟨h.cause ?_, ?_⟩
  · rcases hstate with hactive | hprepared
    · simp [hactive]
    · simp [hprepared]
  · cases hdone : t.done with
    | false => rfl
    | true =>
        rcases h.done hdone with hcommitted | haborted
        · simp [hcommitted] at hstate
        · simp [haborted] at hstate

theorem mayBecome_aborted (hopen : t.isOpen = true) : t.state.MayBecome .aborted := by
  rcases isOpen_iff.mp hopen with hactive | hprepared
  · rw [hactive]
    exact .abortsActive
  · rw [hprepared]
    exact .abortsPrepared

theorem course_toAborted (h : t.Regular) (hopen : t.isOpen = true) (cause : AbortCause) :
    Course t (t.toAborted cause) := by
  obtain ⟨hcause, hdone⟩ := h.of_isOpen hopen
  exact
    { regular := ⟨fun hstate => absurd rfl hstate, fun _ => Or.inr rfl⟩
      id := rfl
      state := mayBecome_aborted hopen
      cause := fun cause' hcause' => absurd (hcause.symm.trans hcause') (by simp)
      told := fun _ _ => rfl
      done := fun hdone' => absurd (hdone.symm.trans hdone') (by simp) }

theorem isOpen_of_active (hactive : t.state = .active) : t.isOpen = true :=
  isOpen_iff.mpr (Or.inl hactive)

theorem course_abort (h : t.Regular) (cause : AbortCause) : Course t (t.abort cause).2 := by
  rcases t.abort_cases cause with ⟨hsame, -⟩ | ⟨hopen, haborted⟩
  · rw [hsame]
    exact .refl h
  · rw [haborted]
    exact course_toAborted h hopen cause

theorem course_beginPrepare (h : t.Regular) (now : Nat) : Course t (t.beginPrepare now).2 := by
  rcases t.beginPrepare_cases now with ⟨hok, hactive⟩ | ⟨e, -, herror⟩ | ⟨hlate, hactive⟩
  · obtain ⟨hcause, hdone⟩ := h.of_isOpen (isOpen_of_active hactive)
    rw [hok]
    exact
      { regular := ⟨fun _ => hcause, fun hdone' => absurd (hdone.symm.trans hdone') (by simp)⟩
        id := rfl
        state := by
          rw [hactive]
          exact .prepares
        cause := fun _ hcause' => hcause'
        told := fun _ haborted => absurd haborted (by simp)
        done := fun hdone' => hdone' }
  · rw [herror]
    exact .refl h
  · rw [hlate]
    exact course_toAborted h (isOpen_of_active hactive) .timeout

/-- A commit may be noted for whoever is prepared, and again for whoever has committed. -/
theorem course_completeCommit (h : t.Regular)
    (hstate : t.state = .prepared ∨ t.state = .committed) : Course t t.completeCommit where
  regular := by
    refine ⟨fun _ => h.cause ?_, fun _ => Or.inl rfl⟩
    rcases hstate with hprepared | hcommitted
    · simp [hprepared]
    · simp [hcommitted]
  id := rfl
  state := by
    rcases hstate with hprepared | hcommitted
    · rw [hprepared]
      exact .commits
    · rw [hcommitted]
      exact .stays _
  cause := fun _ hcause => hcause
  told := fun _ haborted => absurd haborted (by simp [completeCommit])
  done := fun _ => rfl

theorem course_beginParticipantAbort (h : t.Regular) : Course t t.beginParticipantAbort.2 := by
  -- A transaction that is open is aborted first; the participant is done in any case.
  have hdone : ∀ t' : Txn, Course t t' → t'.state = .aborted → Course t { t' with done := true } :=
    fun t' hcourse haborted =>
      { regular := ⟨hcourse.regular.cause, fun _ => Or.inr haborted⟩
        id := hcourse.id
        state := hcourse.state
        cause := hcourse.cause
        told := hcourse.told
        done := fun _ => rfl }
  unfold beginParticipantAbort
  split
  · exact .refl h
  · split
    · exact .refl h
    · rename_i haborted
      exact hdone t (.refl h) haborted
    · rename_i hactive
      exact hdone _ (course_toAborted h (isOpen_of_active hactive) _) rfl
    · rename_i hprepared
      exact hdone _ (course_toAborted h (isOpen_iff.mpr (Or.inr hprepared)) _) rfl

end Txn

namespace Register

variable {r r' r'' : Register} {id : TxnId}

/-- Every status is in order, and has the number by which it is found. -/
structure Regular (r : Register) : Prop where
  id : ∀ id, (r.find id).id = id
  txn : ∀ id, (r.find id).Regular

theorem regular_empty : Regular .empty := ⟨fun _ => rfl, Txn.regular_unknown⟩

/-- Every status of `r'` is in order and may be what has become of that in `r`.  A transaction that
was not known may have begun. -/
structure Course (r r' : Register) : Prop where
  regular : r'.Regular
  known : ∀ id, r.isKnown id = true → r'.isKnown id = true
  find : ∀ id, r.isKnown id = true → (r.find id).Course (r'.find id)

theorem Course.refl (h : r.Regular) : Course r r :=
  ⟨h, fun _ hknown => hknown, fun id _ => .refl (h.txn id)⟩

theorem Course.trans (h : Course r r') (h' : Course r' r'') : Course r r'' where
  regular := h'.regular
  known := fun id hknown => h'.known id (h.known id hknown)
  find := fun id hknown => (h.find id hknown).trans (h'.find id (h.known id hknown))

/-- It is enough to follow every single transaction. -/
theorem Course.of_find (h : r.Regular) (hfind : ∀ id, (r.find id).Course (r'.find id))
    (hknown : ∀ id, r.isKnown id = true → r'.isKnown id = true) : Course r r' where
  regular := ⟨fun id => (hfind id).id.trans (h.id id), fun id => (hfind id).regular⟩
  known := hknown
  find := fun id _ => hfind id

theorem course_update {α : Type} {f : Txn → α × Txn} (h : r.Regular)
    (hf : (r.find id).Course (f (r.find id)).2) : Course r (r.update id f).2 := by
  refine .of_find h ?_ (fun _ hknown => isKnown_update.mpr (Or.inr hknown))
  intro id'
  by_cases hne : id = id'
  · subst hne
    rw [find_update_self]
    exact hf
  · rw [find_update_of_ne hne]
    exact .refl (h.txn id')

theorem course_start (h : r.Regular) (hnew : r.isKnown id = false) (seniority : Seniority)
    (deadline : Nat) : Course r (r.start id seniority deadline) where
  regular := by
    refine ⟨?_, ?_⟩
    · intro id'
      by_cases hne : id = id'
      · subst hne
        rw [find_start_self]
        rfl
      · rw [find_start_of_ne hne]
        exact h.id id'
    · intro id'
      by_cases hne : id = id'
      · subst hne
        rw [find_start_self]
        exact Txn.regular_start _ _ _
      · rw [find_start_of_ne hne]
        exact h.txn id'
  known := fun _ hknown => (isKnown_start seniority deadline).mpr (Or.inr hknown)
  find := by
    intro id' hknown
    have hne : id ≠ id' := by
      rintro rfl
      rw [hnew] at hknown
      exact absurd hknown (by simp)
    rw [find_start_of_ne hne]
    exact .refl (h.txn id')

theorem Wounded.course (hwounded : Wounded r r') (h : r.Regular) : Course r r' := by
  refine .of_find h ?_ hwounded.known
  intro id
  rcases hwounded.find id with hsame | ⟨hactive, cause, haborted⟩
  · rw [hsame]
    exact .refl (h.txn id)
  · rw [haborted]
    exact Txn.course_toAborted (h.txn id) (Txn.isOpen_of_active hactive) cause

theorem course_noteFailure (h : r.Regular) (id : TxnId) (e : StoreError) :
    Course r (r.noteFailure id e) := by
  cases e with
  | aborted txn cause => exact course_update (f := (·.abort cause)) h (Txn.course_abort (h.txn id) cause)
  | _ => exact .refl h

/-! ### Being done -/

/-- The participant is done with exactly those it was done with. -/
def KeepsDone (r r' : Register) : Prop := ∀ id, (r'.find id).done = (r.find id).done

theorem Wounded.keepsDone (h : Wounded r r') : KeepsDone r r' := by
  intro id
  rcases h.find id with hsame | ⟨-, cause, haborted⟩
  · rw [hsame]
  · rw [haborted]
    rfl

theorem keepsDone_update {α : Type} {f : Txn → α × Txn}
    (hf : (f (r.find id)).2.done = (r.find id).done) : KeepsDone r (r.update id f).2 := by
  intro id'
  by_cases hne : id = id'
  · subst hne
    rwa [find_update_self]
  · rw [find_update_of_ne hne]

theorem keepsDone_noteFailure (r : Register) (id : TxnId) (e : StoreError) :
    KeepsDone r (r.noteFailure id e) := by
  cases e with
  | aborted txn cause =>
      refine keepsDone_update (f := (·.abort cause)) ?_
      rcases (r.find id).abort_cases cause with ⟨hsame, -⟩ | ⟨-, haborted⟩
      · rw [hsame]
      · rw [haborted]
        rfl
  | _ => exact fun _ => rfl

theorem keepsDone_start {id : TxnId} (hnew : r.isKnown id = false) (seniority : Seniority)
    (deadline : Nat) : KeepsDone r (r.start id seniority deadline) := by
  intro id'
  by_cases hne : id = id'
  · subst hne
    have hnone : r.txns.get? id = none := by
      simpa [isKnown, FinMap.contains] using hnew
    rw [find_start_self, find, hnone]
    rfl
  · rw [find_start_of_ne hne]

end Register

end ObjectStore
