/-
How a transaction ends at the memory backend.

`Called` lists what a participant call may come to there.  Whatever the call was, to commit is to
make what the transaction sees the committed objects and names, and to forget its writes.
-/
import ObjectStore.Proofs.Backend.Names
import ObjectStore.Store.Participant

namespace ObjectStore

/-- What the backend makes of a participant call, and what is left of the backend. -/
inductive Called (t : TxnId) (m : Memory) :
    ParticipantCall → ParticipantStage → Memory → Prop where
  /-- The backend is shut down. -/
  | refused {call : ParticipantCall} {e : StoreError} (hshut : m.isShutDown = true) :
    Called t m call (.failing e) m
  | commits {call : ParticipantCall} {reply : Reply} {m' : Memory} (hopen : m.isShutDown = false)
    (hcall : call ≠ .abort) (hnames : ∀ name, m'.names.get? name = m.binding? t name)
    (hgone : m'.pending.get? t = none)
    (hothers : ∀ u, t ≠ u → m'.pending.get? u = m.pending.get? u)
    (hstill : m'.isShutDown = false) (hobjects : ∀ oid, m'.objects.get? oid = m.object? t oid) :
    Called t m call (.committed reply) m'
  | prepares : Called t m .prepare (.ended (.ok (.readOnly false)))
    (m.write t fun w => { w with prepared := true })
  /-- Writes that were not prepared are lost. -/
  | loses {e : StoreError} {w : WriteSet} (hopen : m.isShutDown = false)
    (hpending : m.pending.get? t = some w) (hunprepared : w.prepared = false) :
    Called t m .commit (.failing e) (m.discard t)
  | aborts : Called t m .abort (.releaseObjects (.ok .done)) (m.discard t)

namespace Memory

variable {m : Memory} {t u : TxnId}

theorem pending_discard_self (m : Memory) (t : TxnId) : (m.discard t).pending.get? t = none := by
  unfold discard
  rw [FinMap.get?_erase, if_pos rfl]

theorem discard_ne_of_pending {w : WriteSet} (h : m.pending.get? t = some w) : m.discard t ≠ m := by
  intro hsame
  have hgone := m.pending_discard_self t
  rw [hsame, h] at hgone
  cases hgone

theorem names_apply_writes (m : Memory) (t : TxnId) (name : Name) :
    ((m.discard t).apply (m.writes t)).names.get? name = m.binding? t name :=
  FinMap.get?_merge m.names (m.writes t).names name

theorem objects_apply_writes (m : Memory) (t : TxnId) (oid : ObjectId) :
    ((m.discard t).apply (m.writes t)).objects.get? oid = m.object? t oid :=
  FinMap.get?_merge m.objects (m.writes t).objects oid

theorem binding?_of_isEmpty (h : (m.writes t).isEmpty = true) (name : Name) :
    m.names.get? name = m.binding? t name := by
  obtain ⟨-, hnames⟩ := Bool.and_eq_true_iff.mp h
  exact (binding?_of_not_written (FinMap.get?_eq_none_of_isEmpty hnames name)).symm

theorem object?_of_isEmpty (h : (m.writes t).isEmpty = true) (oid : ObjectId) :
    m.objects.get? oid = m.object? t oid := by
  obtain ⟨hobjects, -⟩ := Bool.and_eq_true_iff.mp h
  exact (FinMap.under?_of_get?_eq_none (FinMap.get?_eq_none_of_isEmpty hobjects oid)).symm

theorem writes_of_pending_eq_none (h : m.pending.get? t = none) : m.writes t = .empty := by
  unfold writes
  rw [h]
  rfl

theorem binding?_of_pending_eq_none (h : m.pending.get? t = none) (name : Name) :
    m.names.get? name = m.binding? t name :=
  binding?_of_isEmpty (by rw [writes_of_pending_eq_none h]; rfl) name

theorem object?_of_pending_eq_none (h : m.pending.get? t = none) (oid : ObjectId) :
    m.objects.get? oid = m.object? t oid :=
  object?_of_isEmpty (by rw [writes_of_pending_eq_none h]; rfl) oid

theorem writes_of_pending {w : WriteSet} (h : m.pending.get? t = some w) : m.writes t = w := by
  unfold writes
  rw [h]
  rfl

/-- A backend that is shut down refuses, -/
theorem perform_of_isShutDown {α : Type} {c : BackendCall α} (hshut : m.isShutDown = true)
    (hneeds : isAlwaysAllowed c = false) :
    perform c t m = (.error (.illegalState "backend is shut down"), m) := by
  simp [perform, hshut, hneeds]

/-- and one that is open does as it is told. -/
theorem perform_of_open {α : Type} {c : BackendCall α} (hopen : m.isShutDown = false) :
    perform c t m = m.performOpen t c := by
  simp [perform, hopen]

theorem perform_abort (t : TxnId) (m : Memory) : perform .abort t m = (.ok (), m.discard t) := by
  simp [perform, isAlwaysAllowed, performOpen]

theorem perform_shutdown (t : TxnId) (m : Memory) : perform .shutdown t m = (.ok (), m.shutdown) := by
  simp [perform, isAlwaysAllowed, performOpen]

/-! ### The calls that end a transaction, at an open backend -/

theorem perform_prepare_of_isEmpty (hopen : m.isShutDown = false)
    (hempty : (m.writes t).isEmpty = true) : perform .prepare t m = (.ok true, m.discard t) := by
  rw [perform_of_open hopen]
  simp [performOpen, prepare, hempty]

theorem perform_prepare_of_not_isEmpty (hopen : m.isShutDown = false)
    (hwrites : (m.writes t).isEmpty = false) :
    perform .prepare t m = (.ok false, m.write t fun w => { w with prepared := true }) := by
  rw [perform_of_open hopen]
  simp [performOpen, prepare, hwrites]

theorem perform_commit_of_pending_eq_none (hopen : m.isShutDown = false)
    (hpending : m.pending.get? t = none) : perform .commit t m = (.ok (), m) := by
  rw [perform_of_open hopen]
  simp [performOpen, commit, hpending]

theorem perform_commit_of_prepared {w : WriteSet} (hopen : m.isShutDown = false)
    (hpending : m.pending.get? t = some w) (hprepared : w.prepared = true) :
    perform .commit t m = (.ok (), (m.discard t).apply w) := by
  rw [perform_of_open hopen]
  simp [performOpen, commit, hpending, hprepared]

theorem perform_commit_of_unprepared {w : WriteSet} (hopen : m.isShutDown = false)
    (hpending : m.pending.get? t = some w) (hprepared : w.prepared = false) :
    perform .commit t m =
      (.error (.illegalState s!"transaction {t.text} committed without prepare"), m.discard t) := by
  rw [perform_of_open hopen]
  simp [performOpen, commit, hpending, hprepared]

theorem perform_prepareAndCommit (hopen : m.isShutDown = false) :
    perform .prepareAndCommit t m = (.ok (), (m.discard t).apply (m.writes t)) := by
  rw [perform_of_open hopen]
  rfl

end Memory

section Called

variable {ρo ρn : Type} {s : Store ρo ρn Memory} {t : TxnId} {call : ParticipantCall}
variable {stage stage' : ParticipantStage} {m m' : Memory}

/-- What a call has come to is determined by it. -/
theorem called_of_eq {s' : Store ρo ρn Memory} (h : (stage, s') = (stage', { s with backend := m' }))
    (hcalled : Called t s.backend call stage s'.backend) : Called t s.backend call stage' m' := by
  cases h
  exact hcalled

theorem called_prepare (h : s.callBackend t .prepare = (stage', { s with backend := m' })) :
    Called t s.backend .prepare stage' m' := by
  unfold Store.callBackend Store.call at h
  simp only [Backend.perform] at h
  cases hshut : s.backend.isShutDown with
  | true =>
      rw [Memory.perform_of_isShutDown hshut rfl] at h
      exact called_of_eq h (.refused hshut)
  | false =>
      by_cases hempty : (s.backend.writes t).isEmpty = true
      · rw [Memory.perform_prepare_of_isEmpty hshut hempty] at h
        exact called_of_eq h (.commits hshut (by simp) (Memory.binding?_of_isEmpty hempty)
          (Memory.pending_discard_self _ _) (fun _ hu => Memory.pending_discard_of_ne hu) hshut
          (Memory.object?_of_isEmpty hempty))
      · rw [Memory.perform_prepare_of_not_isEmpty hshut (Bool.of_not_eq_true hempty)] at h
        exact called_of_eq h .prepares

theorem called_commit (h : s.callBackend t .commit = (stage', { s with backend := m' })) :
    Called t s.backend .commit stage' m' := by
  unfold Store.callBackend Store.call at h
  simp only [Backend.perform] at h
  cases hshut : s.backend.isShutDown with
  | true =>
      rw [Memory.perform_of_isShutDown hshut rfl] at h
      exact called_of_eq h (.refused hshut)
  | false =>
      cases hpending : s.backend.pending.get? t with
      | none =>
          rw [Memory.perform_commit_of_pending_eq_none hshut hpending] at h
          exact called_of_eq h (.commits hshut (by simp)
            (Memory.binding?_of_pending_eq_none hpending) hpending (fun _ _ => rfl) hshut
            (Memory.object?_of_pending_eq_none hpending))
      | some w =>
          cases hprepared : w.prepared with
          | true =>
              rw [Memory.perform_commit_of_prepared hshut hpending hprepared,
                ← Memory.writes_of_pending hpending] at h
              exact called_of_eq h (.commits hshut (by simp) (Memory.names_apply_writes _ _)
                (Memory.pending_discard_self _ _)
                (fun _ hu => Memory.pending_discard_of_ne hu) hshut
                (Memory.objects_apply_writes _ _))
          | false =>
              rw [Memory.perform_commit_of_unprepared hshut hpending hprepared] at h
              exact called_of_eq h (.loses hshut hpending hprepared)

theorem called_prepareAndCommit
    (h : s.callBackend t .prepareAndCommit = (stage', { s with backend := m' })) :
    Called t s.backend .prepareAndCommit stage' m' := by
  unfold Store.callBackend Store.call at h
  simp only [Backend.perform] at h
  cases hshut : s.backend.isShutDown with
  | true =>
      rw [Memory.perform_of_isShutDown hshut rfl] at h
      exact called_of_eq h (.refused hshut)
  | false =>
      rw [Memory.perform_prepareAndCommit hshut] at h
      exact called_of_eq h (.commits hshut (by simp) (Memory.names_apply_writes _ _)
        (Memory.pending_discard_self _ _) (fun _ hu => Memory.pending_discard_of_ne hu) hshut
        (Memory.objects_apply_writes _ _))

/-- **A participant call comes to one of the listed ends at the backend.** -/
theorem called_of_callBackend (h : s.callBackend t call = (stage', { s with backend := m' })) :
    Called t s.backend call stage' m' := by
  cases call with
  | prepare => exact called_prepare h
  | commit => exact called_commit h
  | prepareAndCommit => exact called_prepareAndCommit h
  | abort =>
      unfold Store.callBackend Store.call at h
      simp only [Backend.perform] at h
      rw [Memory.perform_abort] at h
      exact called_of_eq h .aborts

end Called

namespace Called

variable {t : TxnId} {m m' : Memory} {call : ParticipantCall} {stage' : ParticipantStage}

theorem others (h : Called t m call stage' m') {u : TxnId} (hu : t ≠ u) :
    m'.pending.get? u = m.pending.get? u := by
  cases h with
  | refused => rfl
  | commits _ _ _ _ hothers => exact hothers u hu
  | prepares => exact Memory.pending_write_of_ne hu
  | loses => exact Memory.pending_discard_of_ne hu
  | aborts => exact Memory.pending_discard_of_ne hu

theorem written (h : Called t m call stage' m') {name : Name}
    (hwritten : ((m'.writes t).names.get? name).isSome = true) :
    ((m.writes t).names.get? name).isSome = true := by
  cases h with
  | refused => exact hwritten
  | commits _ _ _ hgone =>
      unfold Memory.writes at hwritten
      rw [hgone] at hwritten
      exact absurd hwritten (by simp [WriteSet.empty])
  | prepares =>
      rw [Memory.writes_write, if_pos rfl] at hwritten
      exact hwritten
  | loses =>
      rw [Memory.writes_discard, if_pos rfl] at hwritten
      exact absurd hwritten (by simp [WriteSet.empty])
  | aborts =>
      rw [Memory.writes_discard, if_pos rfl] at hwritten
      exact absurd hwritten (by simp [WriteSet.empty])

theorem isShutDown (h : Called t m call stage' m') : m'.isShutDown = m.isShutDown := by
  cases h with
  | commits hopen _ _ _ _ hstill => rw [hopen, hstill]
  | _ => rfl

end Called

end ObjectStore
