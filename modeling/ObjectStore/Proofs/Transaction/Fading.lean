/-
How a transaction fares that nobody commits.

Unless its participant prepares or commits it, or is done with it, the one thing that can happen to a
transaction is that it is aborted.  `Txn.Fades` says so of a transaction and what has become of it.
Operations, wounds, looks at the deadline and failures do no more than that, to their own transaction
and to all others.
-/
import ObjectStore.Proofs.Transaction.Course

namespace ObjectStore

namespace Txn

variable {t t' t'' : Txn}

/-- Nothing has happened to the transaction, but that it may have been aborted. -/
def Fades (t t' : Txn) : Prop := t' = t ∨ t.isOpen = true ∧ ∃ cause, t' = t.toAborted cause

namespace Fades

theorem refl (t : Txn) : Fades t t := Or.inl rfl

theorem trans (h : Fades t t') (h' : Fades t' t'') : Fades t t'' := by
  rcases h with rfl | ⟨hopen, cause, rfl⟩
  · exact h'
  · rcases h' with rfl | ⟨hagain, -⟩
    · exact Or.inr ⟨hopen, cause, rfl⟩
    · exact absurd hagain (by simp [isOpen, toAborted])

theorem done (h : Fades t t') : t'.done = t.done := by
  rcases h with rfl | ⟨-, cause, rfl⟩ <;> rfl

theorem seniority (h : Fades t t') : t'.seniority = t.seniority := by
  rcases h with rfl | ⟨-, cause, rfl⟩ <;> rfl

theorem eq_of_ended (h : Fades t t') (hended : t.isOpen = false) : t' = t := by
  rcases h with rfl | ⟨hopen, -⟩
  · rfl
  · rw [hended] at hopen
    cases hopen

theorem aborted (h : Fades t t') (haborted : t.state = .aborted) : t'.state = .aborted := by
  rwa [h.eq_of_ended (by simp [isOpen, haborted])]

theorem committed_iff (h : Fades t t') : t'.state = .committed ↔ t.state = .committed := by
  rcases h with rfl | ⟨hopen, cause, rfl⟩
  · exact Iff.rfl
  · rcases isOpen_iff.mp hopen with hstate | hstate <;> simp [toAborted, hstate]

end Fades

theorem fades_abort (t : Txn) (cause : AbortCause) : Fades t (t.abort cause).2 := by
  rcases t.abort_cases cause with ⟨hsame, -⟩ | ⟨hopen, haborted⟩
  · exact Or.inl hsame
  · exact Or.inr ⟨hopen, cause, haborted⟩

theorem fades_wound (t : Txn) (reason : WoundReason TxnId) : Fades t (t.wound reason).2 := by
  rcases t.wound_cases reason with hsame | ⟨hactive, haborted⟩
  · exact Or.inl hsame
  · exact Or.inr ⟨isOpen_of_active hactive, haborted⟩

theorem fades_checkActive (t : Txn) (now : Nat) : Fades t (t.checkActive now).2 := by
  rcases t.checkActive_cases now with ⟨hok, -⟩ | ⟨cause, herror⟩ | ⟨hlate, hactive⟩
  · exact Or.inl (congrArg Prod.snd hok)
  · exact Or.inl (congrArg Prod.snd herror)
  · exact Or.inr ⟨isOpen_of_active hactive, _, congrArg Prod.snd hlate⟩

theorem state_abort (h : t.state ≠ .committed) (cause : AbortCause) :
    (t.abort cause).2.state = .aborted := by
  unfold abort
  split
  · rfl
  · rfl
  · rename_i hcommitted
    exact absurd hcommitted h
  · rename_i haborted
    exact haborted

end Txn

namespace Register

variable {r r' r'' : Register} {id u : TxnId}

/-- The transaction of a number fades. -/
def Fades (r : Register) (u : TxnId) (r' : Register) : Prop := (r.find u).Fades (r'.find u)

theorem Fades.refl (r : Register) (u : TxnId) : r.Fades u r := Txn.Fades.refl _

theorem Fades.trans (h : r.Fades u r') (h' : r'.Fades u r'') : r.Fades u r'' := Txn.Fades.trans h h'

theorem Wounded.fades (h : r.Wounded r') (u : TxnId) : r.Fades u r' := by
  rcases h.find u with hsame | ⟨hactive, haborted⟩
  · exact Or.inl hsame
  · exact Or.inr ⟨Txn.isOpen_of_active hactive, haborted⟩

theorem fades_update_of_ne {α : Type} {f : Txn → α × Txn} (hne : id ≠ u) :
    r.Fades u (r.update id f).2 := by
  unfold Fades
  rw [find_update_of_ne hne]
  exact .refl _

theorem fades_update {α : Type} {f : Txn → α × Txn} (u : TxnId)
    (hf : (r.find id).Fades (f (r.find id)).2) : r.Fades u (r.update id f).2 := by
  by_cases hne : id = u
  · subst hne
    unfold Fades
    rwa [find_update_self]
  · exact fades_update_of_ne hne

theorem fades_noteFailure (r : Register) (id : TxnId) (e : StoreError) (u : TxnId) :
    r.Fades u (r.noteFailure id e) := by
  cases e with
  | aborted txn cause => exact fades_update (f := (·.abort cause)) u (Txn.fades_abort _ cause)
  | _ => exact .refl r u

theorem fades_start_of_ne (hne : id ≠ u) (seniority : Seniority) (deadline : Nat) :
    r.Fades u (r.start id seniority deadline) := by
  unfold Fades
  rw [find_start_of_ne hne]
  exact .refl _

end Register

end ObjectStore
