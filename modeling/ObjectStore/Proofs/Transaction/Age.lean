/-
Transactions keep their age and are not revived.

Whatever a store does to the status of a transaction, the transaction stays as old as it began and
keeps its deadline, and once it is no longer active it will never be active again.  `Register.Later`
says so of a register and a later one.

A transaction that refuses to give up is prepared or committed, which is to be firm.
-/
import ObjectStore.Proofs.Locking.Waiting
import ObjectStore.Proofs.Transaction.Register

namespace ObjectStore

namespace Txn

variable {t : Txn}

/-- `t'` may be what has become of `t`. -/
structure Later (t t' : Txn) : Prop where
  seniority : t'.seniority = t.seniority
  deadline : t'.deadline = t.deadline
  active : t'.state = .active → t.state = .active

theorem Later.refl (t : Txn) : Later t t := ⟨rfl, rfl, fun h => h⟩

theorem Later.trans {t' t'' : Txn} (h : Later t t') (h' : Later t' t'') : Later t t'' :=
  ⟨h'.seniority.trans h.seniority, h'.deadline.trans h.deadline,
    fun hactive => h.active (h'.active hactive)⟩

theorem later_toAborted (t : Txn) (cause : AbortCause) : Later t (t.toAborted cause) :=
  ⟨rfl, rfl, fun h => absurd h (by simp [toAborted])⟩

theorem later_wound (t : Txn) (reason : WoundReason TxnId) : Later t (t.wound reason).2 := by
  rcases t.wound_cases reason with hsame | ⟨-, cause, haborted⟩
  · rw [hsame]
    exact .refl t
  · rw [haborted]
    exact t.later_toAborted cause

theorem later_abort (t : Txn) (cause : AbortCause) : Later t (t.abort cause).2 := by
  rcases t.abort_cases cause with ⟨hsame, -⟩ | ⟨-, haborted⟩
  · rw [hsame]
    exact .refl t
  · rw [haborted]
    exact t.later_toAborted cause

theorem later_beginPrepare (now : Nat) (t : Txn) : Later t (t.beginPrepare now).2 := by
  rcases t.beginPrepare_cases now with ⟨hok, -⟩ | ⟨e, -, herror⟩ | ⟨hlate, -⟩
  · rw [hok]
    exact ⟨rfl, rfl, fun h => absurd h (by simp)⟩
  · rw [herror]
    exact .refl t
  · rw [hlate]
    exact t.later_toAborted .timeout

theorem later_completeCommit (t : Txn) : Later t t.completeCommit :=
  ⟨rfl, rfl, fun h => absurd h (by simp [completeCommit])⟩

theorem later_beginParticipantAbort (t : Txn) : Later t t.beginParticipantAbort.2 := by
  unfold beginParticipantAbort
  split
  · exact .refl t
  · split
    · exact .refl t
    · exact ⟨rfl, rfl, fun h => h⟩
    · exact ⟨rfl, rfl, fun h => absurd h (by simp [toAborted])⟩
    · exact ⟨rfl, rfl, fun h => absurd h (by simp [toAborted])⟩

/-- A transaction that is prepared or committed cannot be made to give up. -/
def IsFirm (t : Txn) : Prop := t.state = .prepared ∨ t.state = .committed

/-- Only a firm transaction refuses to give up. -/
theorem isFirm_of_wound {reason : WoundReason TxnId} (h : (t.wound reason).1 = false) :
    (t.wound reason).2.IsFirm := by
  unfold wound at h ⊢
  split at h
  · exact absurd h (by simp)
  · rename_i hprepared
    exact Or.inl hprepared
  · rename_i hcommitted
    exact Or.inr hcommitted
  · split at h <;> exact absurd h (by simp)

end Txn

namespace Register

variable {r r' r'' : Register} {id : TxnId}

/-- `r'` may be what has become of `r`. -/
structure Later (r r' : Register) : Prop where
  known : ∀ id, r.isKnown id = true → r'.isKnown id = true
  find : ∀ id, r.isKnown id = true → (r.find id).Later (r'.find id)

namespace Later

theorem refl (r : Register) : Later r r := ⟨fun _ h => h, fun _ _ => .refl _⟩

theorem trans (h : Later r r') (h' : Later r' r'') : Later r r'' where
  known := fun id hknown => h'.known id (h.known id hknown)
  find := fun id hknown => (h.find id hknown).trans (h'.find id (h.known id hknown))

theorem rank_eq (h : Later r r') (hknown : r.isKnown id = true) :
    Lockers.rank r' id = Lockers.rank r id := by
  show Rank.mk (r'.find id).seniority id.val = ⟨(r.find id).seniority, id.val⟩
  rw [(h.find id hknown).seniority]

theorem ne_active (h : Later r r') (hknown : r.isKnown id = true)
    (hstate : r.stateOf id ≠ .active) : r'.stateOf id ≠ .active :=
  fun hactive => hstate ((h.find id hknown).active hactive)

end Later

theorem later_update {α : Type} {f : Txn → α × Txn} (hf : (r.find id).Later (f (r.find id)).2) :
    Later r (r.update id f).2 where
  known := fun _ hknown => isKnown_update.mpr (Or.inr hknown)
  find := by
    intro id' _
    by_cases hne : id = id'
    · subst hne
      rw [find_update_self]
      exact hf
    · rw [find_update_of_ne hne]
      exact .refl _

theorem later_start (hnew : r.isKnown id = false) (seniority : Seniority) (deadline : Nat) :
    Later r (r.start id seniority deadline) where
  known := fun _ hknown => (isKnown_start seniority deadline).mpr (Or.inr hknown)
  find := by
    intro id' hknown
    have hne : id ≠ id' := by
      rintro rfl
      rw [hnew] at hknown
      exact absurd hknown (by simp)
    rw [find_start_of_ne hne]
    exact .refl _

theorem Wounded.later (h : Wounded r r') : Later r r' where
  known := h.known
  find := by
    intro id _
    rcases h.find id with hsame | ⟨-, cause, haborted⟩
    · rw [hsame]
      exact .refl _
    · rw [haborted]
      exact Txn.later_toAborted _ cause

theorem later_noteFailure (r : Register) (id : TxnId) (e : StoreError) :
    Later r (r.noteFailure id e) := by
  cases e with
  | aborted txn cause => exact later_update (f := (·.abort cause)) (Txn.later_abort _ cause)
  | _ => exact .refl r

/-! ### As lockers -/

theorem ageless : Lockers.Ageless Register := by
  intro r id reason id'
  show Rank.mk ((Lockers.wound r id reason).2.find id').seniority id'.val =
    ⟨(r.find id').seniority, id'.val⟩
  rcases (wounded_wound r id reason).find id' with hsame | ⟨-, cause, haborted⟩
  · rw [hsame]
  · rw [haborted]
    rfl

theorem Wounded.isFirm_iff (h : Wounded r r') : (r'.find id).IsFirm ↔ (r.find id).IsFirm := by
  rcases h.find id with hsame | ⟨hactive, cause, haborted⟩
  · rw [hsame]
  · rw [haborted]
    have hwas : (r.find id).state = .active := hactive
    simp [Txn.IsFirm, Txn.toAborted, hwas]

theorem lasting_isFirm : Lockers.Lasting fun (r : Register) id => (r.find id).IsFirm where
  refuse := by
    intro r id reason hrefused
    show ((r.update id (·.wound reason)).2.find id).IsFirm
    rw [find_update_self]
    exact Txn.isFirm_of_wound hrefused
  stays := fun r id reason _ hfirm => (wounded_wound r id reason).isFirm_iff.mpr hfirm

end Register

end ObjectStore
