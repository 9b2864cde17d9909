/-
A memory backend that has been shut down.

Nothing is buffered there any more, and nothing can be: a call that would change anything, or look
anything up, is refused.  What is left are aborts and shutdowns, which find nothing to do, and batches
without members, which ask for nothing.

A store does not shut its backend down on its own account: one step of a call asks the backend for one
thing at most, and never for that.
-/
import ObjectStore.Proofs.Backend.Overlay

namespace ObjectStore

/-- Whether the call is a batch without members. -/
def BackendCall.isEmptyBatch {α : Type} : BackendCall α → Bool
  | .setMany [] => true
  | _ => false

namespace Memory

variable {m m' : Memory}

/-- The backend is shut down, and nothing is buffered. -/
structure IsClosed (m : Memory) : Prop where
  shut : m.isShutDown = true
  pending : m.pending = ∅

theorem isClosed_shutdown (m : Memory) : m.shutdown.IsClosed := ⟨rfl, rfl⟩

/-- Three kinds of calls are answered by a backend that is shut down. -/
theorem isAlwaysAllowed_iff {α : Type} {c : BackendCall α} :
    isAlwaysAllowed c = true ↔ c.kind = .abort ∨ c.kind = .shutdown ∨ c.isEmptyBatch = true := by
  cases c with
  | setMany items =>
      cases items <;> simp [isAlwaysAllowed, BackendCall.kind, BackendCall.isEmptyBatch]
  | _ => simp [isAlwaysAllowed, BackendCall.kind, BackendCall.isEmptyBatch]

namespace IsClosed

/-- Every other call is refused. -/
theorem refuses {α : Type} (h : m.IsClosed) {c : BackendCall α} (t : TxnId)
    (habort : c.kind ≠ .abort) (hshutdown : c.kind ≠ .shutdown) (hbatch : c.isEmptyBatch = false) :
    (perform c t m).1 = .error (.illegalState "backend is shut down") := by
  have hneeds : isAlwaysAllowed c = false := by
    refine Bool.eq_false_iff.mpr fun hallowed => ?_
    rcases isAlwaysAllowed_iff.mp hallowed with hkind | hkind | hempty
    · exact habort hkind
    · exact hshutdown hkind
    · rw [hbatch] at hempty
      cases hempty
  rw [perform_of_isShutDown h.shut hneeds]

theorem discard (h : m.IsClosed) (t : TxnId) : m.discard t = m := by
  obtain ⟨nextOid, objects, names, classes, classIds, pending, isShutDown⟩ := m
  obtain rfl : pending = ∅ := h.pending
  rfl

theorem shutdown (h : m.IsClosed) : m.shutdown = m := by
  obtain ⟨nextOid, objects, names, classes, classIds, pending, isShutDown⟩ := m
  obtain rfl : pending = ∅ := h.pending
  obtain rfl : isShutDown = true := h.shut
  rfl

/-- **No call changes a backend that is closed.** -/
theorem perform {α : Type} (h : m.IsClosed) (c : BackendCall α) (t : TxnId) :
    (perform c t m).2 = m := by
  by_cases hallowed : isAlwaysAllowed c = true
  · cases c with
    | abort => rw [perform_abort, h.discard]
    | shutdown => rw [perform_shutdown, h.shutdown]
    | setMany items =>
        cases items with
        | nil => simp [Memory.perform, isAlwaysAllowed, performOpen, setMany]
        | cons item rest => exact absurd hallowed (by simp [isAlwaysAllowed])
    | _ => exact absurd hallowed (by simp [isAlwaysAllowed])
  · rw [perform_of_isShutDown h.shut (Bool.of_not_eq_true hallowed)]

end IsClosed

/-! ### Calls other than a shutdown -/

/-- Nothing but a shutdown shuts a backend down. -/
theorem isShutDown_perform {α : Type} {c : BackendCall α} (hkind : c.kind ≠ .shutdown) (t : TxnId)
    (m : Memory) : (perform c t m).2.isShutDown = m.isShutDown := by
  cases hdata : c.isData with
  | true => exact (others_perform hdata).2
  | false =>
      unfold perform
      split
      · rfl
      · cases c with
        | prepare =>
            simp only [performOpen, prepare]
            split <;> rfl
        | commit =>
            simp only [performOpen, commit]
            split
            · rfl
            · split <;> rfl
        | prepareAndCommit => rfl
        | abort => rfl
        | shutdown => exact absurd rfl hkind
        | _ => cases hdata

theorem pending_perform_of_ne {α : Type} {t u : TxnId} (c : BackendCall α) (hu : t ≠ u)
    (hnone : m.pending.get? u = none) : (perform c t m).2.pending.get? u = none := by
  cases hdata : c.isData with
  | true => exact ((others_perform hdata).1 u hu).trans hnone
  | false =>
      have hdiscard : (m.discard t).pending.get? u = none := (pending_discard_of_ne hu).trans hnone
      unfold perform
      split
      · exact hnone
      · cases c with
        | prepare =>
            simp only [performOpen, prepare]
            split
            · exact hdiscard
            · exact (pending_write_of_ne hu).trans hnone
        | commit =>
            simp only [performOpen, commit]
            split
            · exact hnone
            · split <;> exact hdiscard
        | prepareAndCommit => exact hdiscard
        | abort => exact hdiscard
        | shutdown => rfl
        | _ => cases hdata

/-- The backend has been left alone, or has answered one call of a transaction that is no shutdown. -/
inductive Asked (m : Memory) (t : TxnId) : Memory → Prop where
  | alone : Asked m t m
  | answered {α : Type} (c : BackendCall α) (hkind : c.kind ≠ .shutdown) :
    Asked m t (perform c t m).2

theorem Asked.isShutDown {t : TxnId} (h : m.Asked t m') : m'.isShutDown = m.isShutDown := by
  cases h with
  | alone => rfl
  | answered c hkind => exact isShutDown_perform hkind t m

theorem Asked.pending_of_ne {t u : TxnId} (h : m.Asked t m') (hu : t ≠ u)
    (hnone : m.pending.get? u = none) : m'.pending.get? u = none := by
  cases h with
  | alone => exact hnone
  | answered c => exact pending_perform_of_ne c hu hnone

theorem IsClosed.asked {t : TxnId} (h : m.IsClosed) (hasked : m.Asked t m') : m' = m := by
  cases hasked with
  | alone => rfl
  | answered c => exact h.perform c t

end Memory

/-! ### What a store asks for -/

namespace Store

variable {ρo ρn : Type} {s : Store ρo ρn Memory}

theorem asked_callThen {α : Type} {c : BackendCall α} (hkind : c.kind ≠ .shutdown) (t : TxnId)
    (next : α → Stage) (s : Store ρo ρn Memory) :
    s.backend.Asked t (s.callThen t c next).2.backend := by
  have hbackend : (s.callThen t c next).2.backend = (Memory.perform c t s.backend).2 := by
    unfold callThen call
    simp only [Backend.perform]
    rcases Memory.perform c t s.backend with ⟨_ | _, _⟩ <;> rfl
  rw [hbackend]
  exact .answered c hkind

theorem asked_callBackend (t : TxnId) (call : ParticipantCall) (s : Store ρo ρn Memory) :
    s.backend.Asked t (s.callBackend t call).2.backend := by
  cases call with
  | prepare =>
      have hbackend :
          (s.callBackend t .prepare).2.backend = (Memory.perform .prepare t s.backend).2 := by
        unfold callBackend Store.call
        simp only [Backend.perform]
        rcases Memory.perform .prepare t s.backend with ⟨_ | _ | _, _⟩ <;> rfl
      rw [hbackend]
      exact .answered .prepare (by simp [BackendCall.kind])
  | commit =>
      have hbackend :
          (s.callBackend t .commit).2.backend = (Memory.perform .commit t s.backend).2 := by
        unfold callBackend Store.call
        simp only [Backend.perform]
        rcases Memory.perform .commit t s.backend with ⟨_ | _, _⟩ <;> rfl
      rw [hbackend]
      exact .answered .commit (by simp [BackendCall.kind])
  | prepareAndCommit =>
      have hbackend : (s.callBackend t .prepareAndCommit).2.backend =
          (Memory.perform .prepareAndCommit t s.backend).2 := by
        unfold callBackend Store.call
        simp only [Backend.perform]
        rcases Memory.perform .prepareAndCommit t s.backend with ⟨_ | _, _⟩ <;> rfl
      rw [hbackend]
      exact .answered .prepareAndCommit (by simp [BackendCall.kind])
  | abort => exact .answered .abort (by simp [BackendCall.kind])

theorem asked_act (t : TxnId) (plan : Plan) (s : Store ρo ρn Memory) :
    s.backend.Asked t (s.act t plan).2.backend := by
  cases plan with
  | setMany unreported items =>
      cases unreported with
      | nil => exact asked_callThen (by simp [BackendCall.kind]) t _ s
      | cons oid rest => exact .alone
  | answer result => exact .alone
  | _ => exact asked_callThen (by simp [BackendCall.kind]) t _ s

theorem backend_start (t : TxnId) (op : Operation) (s : Store ρo ρn Memory) :
    (s.start t op).2.backend = s.backend := by
  have hcheck : (s.checkActive t).2.backend = s.backend := rfl
  unfold start
  split
  · rfl
  · split
    · rename_i heq
      rwa [heq] at hcheck
    · rename_i heq
      rwa [heq] at hcheck

variable [Reporter ρo ObjectId] [Reporter ρn NameKey]

theorem backend_report (t : TxnId) (access : Access) (s : Store ρo ρn Memory) :
    (s.report t access).2.backend = s.backend := by
  cases access <;> rfl

/-- A step of an operation asks the backend for one thing at most. -/
theorem asked_step (t : TxnId) (stage : Stage) (s : Store ρo ρn Memory) :
    s.backend.Asked t (s.step t stage).2.backend := by
  cases stage with
  | report access plan =>
      have hstep : (s.step t (.report access plan)).2 = (s.report t access).2 := by
        simp only [step]
        split <;> simp_all
      rw [hstep, backend_report]
      exact .alone
  | waiting signal access plan =>
      simp only [step]
      split <;> exact .alone
  | act plan => exact s.asked_act t plan
  | failing e => exact .alone
  | ended result => exact .alone

/-- A step of a participant call asks the backend for one thing at most. -/
theorem asked_participantStep (t : TxnId)
    (stage : ParticipantStage) (s : Store ρo ρn Memory) :
    s.backend.Asked t (s.participantStep t stage).2.backend := by
  cases stage with
  | enter call =>
      have hsame : (s.enter t call).2.backend = s.backend := by
        cases call <;> rfl
      have hstep : (s.participantStep t (.enter call)).2 = (s.enter t call).2 := by
        simp only [participantStep]
        split <;> simp_all
      rw [hstep, hsame]
      exact .alone
  | backend call => exact s.asked_callBackend t call
  | committed reply => exact .alone
  | releaseObjects result => exact .alone
  | releaseNames result => exact .alone
  | failing e => exact .alone
  | ended result => exact .alone

end Store

end ObjectStore
