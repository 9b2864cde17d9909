/-
How the status of a transaction moves.

A wound aborts a transaction that is active and does nothing to any other.  `Register.Wounded` says
so of a whole register, and every turn of a lock call stays within it.  The statements below say the
same for each function by which a store changes the status of one transaction.
-/
import ObjectStore.Proofs.Locking.Table
import ObjectStore.Transaction.Register

namespace ObjectStore

namespace Txn

variable {t : Txn}

@[simp] theorem isOpen_iff : t.isOpen = true ↔ t.state = .active ∨ t.state = .prepared := by
  simp [isOpen]

@[simp] theorem isActive_iff : t.isActive = true ↔ t.state = .active := by
  simp [isActive]

/-- A wound aborts an active transaction; any other stays as it is. -/
theorem wound_cases (reason : WoundReason TxnId) :
    (t.wound reason).2 = t ∨
      t.state = .active ∧ ∃ cause, (t.wound reason).2 = t.toAborted cause := by
  unfold wound
  split
  · exact Or.inl rfl
  · exact Or.inl rfl
  · exact Or.inl rfl
  · rename_i hactive
    refine Or.inr ⟨hactive, ?_⟩
    cases reason with
    | outranked elder => exact ⟨_, rfl⟩
    | expired => exact ⟨_, rfl⟩

theorem state_of_wound {reason : WoundReason TxnId} (h : (t.wound reason).1 = true) :
    (t.wound reason).2.state = .aborted := by
  unfold wound at h ⊢
  split at h
  · rename_i haborted
    rw [haborted]
  · exact absurd h (by simp)
  · exact absurd h (by simp)
  · cases reason with
    | outranked elder => rfl
    | expired => rfl

/-- An abort does nothing to a transaction that has ended. -/
theorem abort_cases (cause : AbortCause) :
    (t.abort cause).2 = t ∧ t.isOpen = false ∨
      t.isOpen = true ∧ (t.abort cause).2 = t.toAborted cause := by
  unfold abort
  split
  · rename_i hstate
    exact Or.inr ⟨by simp [isOpen, hstate], rfl⟩
  · rename_i hstate
    exact Or.inr ⟨by simp [isOpen, hstate], rfl⟩
  · rename_i hstate
    exact Or.inl ⟨rfl, by simp [isOpen, hstate]⟩
  · rename_i hstate
    exact Or.inl ⟨rfl, by simp [isOpen, hstate]⟩

/-- An abort says whether it has found the transaction open. -/
theorem abort_fst (cause : AbortCause) : (t.abort cause).1 = t.isOpen := by
  unfold abort isOpen
  split <;> simp_all

theorem meetDeadline_cases (now : Nat) (t : Txn) :
    t.meetDeadline now = (.ok (), t) ∨
      t.meetDeadline now = (.error (.aborted t.id .timeout), t.toAborted .timeout) := by
  unfold meetDeadline
  split
  · exact Or.inr rfl
  · exact Or.inl rfl

/-- Looking at the status before an operation finds the transaction active, finds it not active, or
aborts it. -/
theorem checkActive_cases (now : Nat) (t : Txn) :
    t.checkActive now = (.ok (), t) ∧ t.state = .active ∨
      (∃ cause, t.checkActive now = (.error (.notActive t.id cause), t)) ∨
      t.checkActive now = (.error (.aborted t.id .timeout), t.toAborted .timeout) ∧
        t.state = .active := by
  unfold checkActive
  split
  · exact Or.inr (Or.inl ⟨_, rfl⟩)
  · exact Or.inr (Or.inl ⟨_, rfl⟩)
  · exact Or.inr (Or.inl ⟨_, rfl⟩)
  · rename_i hactive
    split
    · exact Or.inr (Or.inl ⟨_, rfl⟩)
    · rcases meetDeadline_cases now t with hok | hlate
      · exact Or.inl ⟨hok, hactive⟩
      · exact Or.inr (Or.inr ⟨hlate, hactive⟩)

/-- Preparing moves an active transaction to prepared, fails, or aborts it. -/
theorem beginPrepare_cases (now : Nat) (t : Txn) :
    t.beginPrepare now = (.ok (), { t with state := .prepared }) ∧ t.state = .active ∨
      (∃ e : StoreError, e.isAbort = false ∧ t.beginPrepare now = (.error e, t)) ∨
      t.beginPrepare now = (.error (.aborted t.id .timeout), t.toAborted .timeout) ∧
        t.state = .active := by
  unfold beginPrepare
  split
  · exact Or.inr (Or.inl ⟨_, rfl, rfl⟩)
  · split
    · exact Or.inr (Or.inl ⟨_, rfl, rfl⟩)
    · exact Or.inr (Or.inl ⟨_, rfl, rfl⟩)
    · exact Or.inr (Or.inl ⟨_, rfl, rfl⟩)
    · rename_i hactive
      rcases meetDeadline_cases now t with hok | hlate
      · rw [hok]
        exact Or.inl ⟨rfl, hactive⟩
      · rw [hlate]
        exact Or.inr (Or.inr ⟨rfl, hactive⟩)

theorem state_of_checkPrepared (h : t.checkPrepared = .ok ()) : t.state = .prepared := by
  unfold checkPrepared at h
  split at h
  · exact absurd h (by simp)
  · split at h
    · assumption
    · exact absurd h (by simp)
    · exact absurd h (by simp)
    · exact absurd h (by simp)

/-- A participant that may abort the transaction finds or leaves it aborted. -/
theorem beginParticipantAbort_cases :
    (t.beginParticipantAbort.1 = .ok () ∧ t.beginParticipantAbort.2.state = .aborted ∧
        t.state ≠ .committed) ∨
      ∃ e : StoreError, e.isAbort = false ∧ t.beginParticipantAbort = (.error e, t) := by
  unfold beginParticipantAbort
  split
  · exact Or.inr ⟨_, rfl, rfl⟩
  · split
    · exact Or.inr ⟨_, rfl, rfl⟩
    · rename_i haborted
      exact Or.inl ⟨rfl, haborted, by simp [haborted]⟩
    · rename_i hactive
      exact Or.inl ⟨rfl, rfl, by simp [hactive]⟩
    · rename_i hprepared
      exact Or.inl ⟨rfl, rfl, by simp [hprepared]⟩

end Txn

namespace Register

variable {r r' r'' : Register} {id : TxnId}

/-- Where a transaction stands. -/
def stateOf (r : Register) (id : TxnId) : TxnState := (r.find id).state

/-- Whether a transaction is active or prepared. -/
def isOpen (r : Register) (id : TxnId) : Bool := (r.find id).isOpen

/-- Whether a transaction has begun. -/
def isKnown (r : Register) (id : TxnId) : Bool := r.txns.contains id

theorem isOpen_iff : r.isOpen id = true ↔ r.stateOf id = .active ∨ r.stateOf id = .prepared :=
  Txn.isOpen_iff

theorem isOpen_of_aborted (h : r.stateOf id = .aborted) : r.isOpen id = false := by
  unfold isOpen Txn.isOpen
  rw [show (r.find id).state = .aborted from h]
  rfl

theorem isOpen_of_committed (h : r.stateOf id = .committed) : r.isOpen id = false := by
  unfold isOpen Txn.isOpen
  rw [show (r.find id).state = .committed from h]
  rfl

theorem stateOf_of_unknown (h : r.isKnown id = false) : r.stateOf id = .aborted := by
  have hnone : r.txns.get? id = none := by
    simpa [isKnown, FinMap.contains] using h
  simp [stateOf, find, hnone, unknown]

/-! ### Changing one transaction -/

variable {α : Type} {f : Txn → α × Txn}

theorem find_update_self : (r.update id f).2.find id = (f (r.find id)).2 := by
  rw [find_update, if_pos rfl]

theorem find_update_of_ne {id' : TxnId} (hne : id ≠ id') :
    (r.update id f).2.find id' = r.find id' := by
  rw [find_update, if_neg hne]

theorem isKnown_update {id' : TxnId} :
    (r.update id f).2.isKnown id' = true ↔ id = id' ∨ r.isKnown id' = true := by
  unfold isKnown update FinMap.contains
  simp only [FinMap.get?_insert]
  by_cases h : id = id' <;> simp [h]

theorem find_start_self (seniority : Seniority) (deadline : Nat) :
    (r.start id seniority deadline).find id = .start id seniority deadline := by
  unfold start
  rw [find_put]
  exact if_pos rfl

theorem find_start_of_ne {id' : TxnId} (hne : id ≠ id') (seniority : Seniority) (deadline : Nat) :
    (r.start id seniority deadline).find id' = r.find id' := by
  unfold start
  rw [find_put]
  exact if_neg hne

theorem isKnown_start {id' : TxnId} (seniority : Seniority) (deadline : Nat) :
    (r.start id seniority deadline).isKnown id' = true ↔ id = id' ∨ r.isKnown id' = true := by
  unfold isKnown start put FinMap.contains
  simp only [FinMap.get?_insert, Txn.start]
  by_cases h : id = id' <;> simp [h]

/-! ### Wounds -/

/-- Some transactions that were active may have been aborted, and nothing else has happened. -/
structure Wounded (r r' : Register) : Prop where
  find : ∀ id, r'.find id = r.find id ∨
    r.stateOf id = .active ∧ ∃ cause, r'.find id = (r.find id).toAborted cause
  known : ∀ id, r.isKnown id = true → r'.isKnown id = true

namespace Wounded

theorem refl (r : Register) : Wounded r r where
  find := fun _ => Or.inl rfl
  known := fun _ h => h

theorem trans (h : Wounded r r') (h' : Wounded r' r'') : Wounded r r'' where
  find := by
    intro id
    rcases h.find id with hsame | ⟨hactive, cause, haborted⟩
    · rcases h'.find id with hsame' | ⟨hactive', haborted'⟩
      · exact Or.inl (hsame'.trans hsame)
      · refine Or.inr ⟨?_, ?_⟩
        · rwa [stateOf, hsame] at hactive'
        · rwa [hsame] at haborted'
    · rcases h'.find id with hsame' | ⟨hactive', -⟩
      · exact Or.inr ⟨hactive, cause, hsame'.trans haborted⟩
      · rw [stateOf, haborted] at hactive'
        exact absurd hactive' (by simp [Txn.toAborted])
  known := fun id hid => h'.known id (h.known id hid)

/-- Nobody is opened by a wound, and whoever stays open stays as it was. -/
theorem find_eq_of_isOpen (h : Wounded r r') (hopen : r'.isOpen id = true) :
    r'.find id = r.find id := by
  refine (h.find id).resolve_right ?_
  rintro ⟨-, cause, haborted⟩
  rw [isOpen, haborted] at hopen
  exact absurd hopen (by simp [Txn.isOpen, Txn.toAborted])

theorem isOpen_of_isOpen (h : Wounded r r') (hopen : r'.isOpen id = true) : r.isOpen id = true := by
  have heq := h.find_eq_of_isOpen hopen
  rwa [isOpen, heq] at hopen

end Wounded

/-! ### Closing and never opening again -/

/-- Nobody who had begun and was closed is open, a commit is for good, and nobody is forgotten. -/
structure After (r r' : Register) : Prop where
  opens : ∀ id, r.isKnown id = true → r'.isOpen id = true → r.isOpen id = true
  committed : ∀ id, r.stateOf id = .committed → r'.stateOf id = .committed
  known : ∀ id, r.isKnown id = true → r'.isKnown id = true

namespace After

theorem refl (r : Register) : After r r where
  opens := fun _ _ h => h
  committed := fun _ h => h
  known := fun _ h => h

theorem trans {r'' : Register} (h : After r r') (h' : After r' r'') : After r r'' where
  opens := fun id hknown hopen => h.opens id hknown (h'.opens id (h.known id hknown) hopen)
  committed := fun id hstate => h'.committed id (h.committed id hstate)
  known := fun id hknown => h'.known id (h.known id hknown)

/-- It is enough to look at the one transaction that has changed. -/
theorem of_ne (id : TxnId) (hself : r'.isOpen id = true → r.isOpen id = true)
    (hcommitted : r.stateOf id = .committed → r'.stateOf id = .committed)
    (hother : ∀ id', id ≠ id' → r'.find id' = r.find id')
    (hknown : ∀ id', r.isKnown id' = true → r'.isKnown id' = true) : After r r' where
  opens := by
    intro id' _ hopen
    by_cases hne : id = id'
    · subst hne
      exact hself hopen
    · rwa [isOpen, hother id' hne] at hopen
  committed := by
    intro id' hstate
    by_cases hne : id = id'
    · subst hne
      exact hcommitted hstate
    · rwa [stateOf, hother id' hne]
  known := hknown

end After

theorem Wounded.after (h : Wounded r r') : After r r' where
  opens := fun _ _ hopen => h.isOpen_of_isOpen hopen
  committed := by
    intro id hstate
    rcases h.find id with hsame | ⟨hactive, -⟩
    · rwa [stateOf, hsame]
    · rw [hstate] at hactive
      exact absurd hactive (by simp)
  known := h.known

theorem after_start (hnew : r.isKnown id = false) (seniority : Seniority) (deadline : Nat) :
    After r (r.start id seniority deadline) where
  opens := by
    intro id' hknown hopen
    have hne : id ≠ id' := by
      rintro rfl
      rw [hnew] at hknown
      exact absurd hknown (by simp)
    rwa [isOpen, find_start_of_ne hne] at hopen
  committed := by
    intro id' hstate
    have hne : id ≠ id' := by
      rintro rfl
      rw [stateOf_of_unknown hnew] at hstate
      exact absurd hstate (by simp)
    rwa [stateOf, find_start_of_ne hne]
  known := fun _ hknown => (isKnown_start seniority deadline).mpr (Or.inr hknown)

theorem noteFailure_of_not_isAbort {e : StoreError} (h : e.isAbort = false) :
    r.noteFailure id e = r := by
  cases e with
  | aborted txn cause => exact absurd h (by simp [StoreError.isAbort])
  | _ => rfl

theorem isOpen_noteFailure {e : StoreError} (h : e.isAbort = true) :
    (r.noteFailure id e).isOpen id = false := by
  cases e with
  | aborted txn cause =>
      have hfind : (r.noteFailure id (.aborted txn cause)).find id = ((r.find id).abort cause).2 :=
        find_update_self (f := (·.abort cause))
      rw [isOpen, hfind]
      rcases (r.find id).abort_cases cause with ⟨hsame, hclosed⟩ | ⟨-, haborted⟩
      · rwa [hsame]
      · rw [haborted]
        rfl
  | _ => exact absurd h (by simp [StoreError.isAbort])

theorem find_noteFailure_of_not_isOpen {e : StoreError} (h : r.isOpen id = false) :
    (r.noteFailure id e).find id = r.find id := by
  cases e with
  | aborted txn cause =>
      have hfind : (r.noteFailure id (.aborted txn cause)).find id = ((r.find id).abort cause).2 :=
        find_update_self (f := (·.abort cause))
      rw [hfind]
      rcases (r.find id).abort_cases cause with ⟨hsame, -⟩ | ⟨hopen, -⟩
      · exact hsame
      · have hwas : r.isOpen id = true := hopen
        rw [h] at hwas
        exact absurd hwas (by simp)
  | _ => rfl

theorem find_noteFailure_of_ne {e : StoreError} {id' : TxnId} (hne : id ≠ id') :
    (r.noteFailure id e).find id' = r.find id' := by
  cases e with
  | aborted txn cause => exact find_update_of_ne (f := (·.abort cause)) hne
  | _ => rfl

theorem isKnown_noteFailure {e : StoreError} {id' : TxnId} (h : r.isKnown id' = true) :
    (r.noteFailure id e).isKnown id' = true := by
  cases e with
  | aborted txn cause => exact (isKnown_update (f := (·.abort cause))).mpr (Or.inr h)
  | _ => exact h

theorem after_noteFailure (r : Register) (id : TxnId) (e : StoreError) :
    After r (r.noteFailure id e) := by
  refine .of_ne id ?_ ?_ (fun _ hne => find_noteFailure_of_ne hne)
    (fun _ hknown => isKnown_noteFailure hknown)
  · cases h : e.isAbort with
    | true => exact fun hopen => absurd hopen (by simp [isOpen_noteFailure h])
    | false =>
        rw [noteFailure_of_not_isAbort h]
        intro hopen
        exact hopen
  · intro hstate
    rwa [stateOf, find_noteFailure_of_not_isOpen (isOpen_of_committed hstate)]

/-! ### Lock tables -/

/-- Whom a lock table turns away is not active. -/
theorem stateOf_ne_active (h : Lockers.isActive r id = false) : r.stateOf id ≠ .active := by
  intro hactive
  have hisActive : Lockers.isActive r id = true := Txn.isActive_iff.mpr hactive
  rw [h] at hisActive
  cases hisActive

/-- A wound is all that a lock table ever does to a register. -/
theorem wounded_wound (r : Register) (id : TxnId) (reason : WoundReason TxnId) :
    Wounded r (Lockers.wound r id reason).2 where
  find := by
    intro id'
    show (r.update id (·.wound reason)).2.find id' = _ ∨
      _ ∧ ∃ _, (r.update id (·.wound reason)).2.find id' = _
    by_cases hne : id = id'
    · rw [← hne, find_update_self]
      exact (r.find id).wound_cases reason
    · exact Or.inl (find_update_of_ne hne)
  known := fun _ hknown => isKnown_update.mpr (Or.inr hknown)

theorem final_aborted : Lockers.Final fun (r : Register) id => r.stateOf id = .aborted where
  wound := by
    intro r id reason hgave
    show ((r.update id (·.wound reason)).2.find id).state = _
    rw [find_update_self]
    exact Txn.state_of_wound hgave
  stays := by
    intro r id reason id' haborted
    rcases (wounded_wound r id reason).find id' with hsame | ⟨hactive, -⟩
    · rwa [stateOf, hsame]
    · rw [haborted] at hactive
      exact absurd hactive (by simp)

theorem wounded_turn {K : Type} [DecidableEq K] [Hashable K] {now deadline : Nat} {key : K}
    {mode : LockMode} {t t' : LockTable K TxnId} {answer : LockTurn TxnId}
    (h : t.turn now deadline id key mode r = (answer, r', t')) : Wounded r r' :=
  LockTable.lockers_turn Wounded.refl (fun _ _ _ => Wounded.trans)
    (fun r id reason _ => wounded_wound r id reason) h

/-- The transaction whose turn it is keeps its status. -/
theorem find_turn_self {K : Type} [DecidableEq K] [Hashable K] {now deadline : Nat} {key : K}
    {mode : LockMode} {t t' : LockTable K TxnId} {answer : LockTurn TxnId}
    (h : t.turn now deadline id key mode r = (answer, r', t')) : r'.find id = r.find id :=
  LockTable.lockers_turn (R := fun r r' : Register => r'.find id = r.find id) (fun _ => rfl)
    (fun _ _ _ h h' => h'.trans h) (fun _ _ _ hne => find_update_of_ne hne) h

end Register

end ObjectStore
