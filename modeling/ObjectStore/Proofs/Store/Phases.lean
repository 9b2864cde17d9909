/-
A commit in one phase and a commit in two.

The store commits a transaction at once, or prepares it first and commits it then.  The two ways have
code of their own, in the store and in the backend.  `prepareAndCommit_eq_commitInTwo` says that they
come to the same: for every store, reachable or not, they both succeed or fail alike, and leave the very
same store.
-/
import ObjectStore.Proofs.Store.Participation

namespace ObjectStore

namespace FinMap

variable {K V : Type} [DecidableEq K]

theorem erase_insert (m : FinMap K V) (k : K) (v : V) : (m.insert k v).erase k = m.erase k := by
  simp [erase, insert, filter]

theorem merge_of_isEmpty (m : FinMap K V) {changes : FinMap K (Option V)}
    (h : changes.isEmpty = true) : m.merge changes = m := by
  unfold isEmpty at h
  unfold merge
  rw [List.isEmpty_iff.mp h]
  rfl

theorem isEmpty_iff (m : FinMap K V) : m.isEmpty = true ↔ ∀ k, m.get? k = none := by
  refine ⟨get?_eq_none_of_isEmpty, fun h => ?_⟩
  obtain ⟨pairs, nodup⟩ := m
  cases pairs with
  | nil => rfl
  | cons p rest =>
      have hhead := h p.1
      simp [get?] at hhead

end FinMap

theorem WriteSet.isEmpty_iff (w : WriteSet) :
    w.isEmpty = true ↔ (∀ oid, w.objects.get? oid = none) ∧ ∀ name, w.names.get? name = none := by
  unfold isEmpty
  rw [Bool.and_eq_true_iff, FinMap.isEmpty_iff, FinMap.isEmpty_iff]

namespace Memory

variable {m : Memory} {t : TxnId}

theorem discard_write (m : Memory) (t : TxnId) (f : WriteSet → WriteSet) :
    (m.write t f).discard t = m.discard t := by
  unfold discard write
  rw [FinMap.erase_insert]

theorem apply_of_isEmpty {w : WriteSet} (h : w.isEmpty = true) : m.apply w = m := by
  obtain ⟨hobjects, hnames⟩ := Bool.and_eq_true_iff.mp h
  unfold apply
  rw [FinMap.merge_of_isEmpty _ hobjects, FinMap.merge_of_isEmpty _ hnames]

/-- **To commit what has just been prepared is to commit it unprepared.** -/
theorem perform_commit_of_prepare (hopen : m.isShutDown = false) :
    perform .commit t (m.write t fun w => { w with prepared := true }) =
      perform .prepareAndCommit t m := by
  have hpending : (m.write t fun w => { w with prepared := true }).pending.get? t =
      some { m.writes t with prepared := true } := FinMap.get?_insert_self _ _ _
  rw [perform_prepareAndCommit hopen, perform_commit_of_prepared (by exact hopen) hpending rfl,
    discard_write]
  rfl

end Memory

/-- A transaction that has just been moved to prepared may be committed. -/
theorem Txn.checkPrepared_of_beginPrepare {t : Txn} {now : Nat}
    (h : (t.beginPrepare now).1 = .ok ()) : (t.beginPrepare now).2.checkPrepared = .ok () := by
  have hlook : (ParticipantCall.prepare.look now t).1 = .ok () := h
  have hdone := done_of_look_eq_ok hlook
  rcases look_ok_cases hlook with ⟨-, -, hlooked⟩ | ⟨hother, -⟩ | ⟨hother, -⟩
  · have hprepared : (t.beginPrepare now).2 = { t with state := .prepared } := hlooked
    rw [hprepared]
    simp [checkPrepared, hdone]
  · cases hother
  · cases hother

namespace Store

variable {ρo ρn : Type} {s s₁ : Store ρo ρn Memory} {t : TxnId} {call : ParticipantCall}

/-- To move a transaction to prepared is to ready it for a commit, and not to ask the backend. -/
theorem checkPrepared_of_enter (henter : s.enter t .prepare = (.ok (), s₁)) :
    s₁.backend = s.backend ∧ (s₁.register.find t).checkPrepared = .ok () := by
  obtain ⟨hlook, rfl⟩ := Prod.mk.inj henter
  refine ⟨rfl, ?_⟩
  have hfind : ((s.register.update t (·.beginPrepare s.now)).2).find t =
      ((s.register.find t).beginPrepare s.now).2 := Register.find_update_self
  show ((s.register.update t (·.beginPrepare s.now)).2.find t).checkPrepared = .ok ()
  rw [hfind]
  exact Txn.checkPrepared_of_beginPrepare hlook

variable [Reporter ρo ObjectId] [Reporter ρn NameKey]

/-- A backend that is shut down refuses what the status allows; the status has moved by then. -/
theorem participate_of_isShutDown (hcall : call ≠ .abort) (henter : s.enter t call = (.ok (), s₁))
    (hshut : s₁.backend.isShutDown = true) :
    s.participate t call = (.error (.illegalState "backend is shut down"), s₁) := by
  have hcalled :
      s₁.callBackend t call = (.failing (.illegalState "backend is shut down"), s₁) := by
    cases call with
    | abort => exact absurd rfl hcall
    | _ =>
        unfold callBackend Store.call
        simp only [Backend.perform]
        rw [Memory.perform_of_isShutDown hshut rfl]
  exact participate_of_failing henter hcalled

/-- The ways of a prepare, and of a commit in one phase beside it. -/
theorem prepare_cases (s : Store ρo ρn Memory) (t : TxnId) :
    (∃ e s', s.participate t .prepare = (.error e, s') ∧
        s.participate t .prepareAndCommit = (.error e, s')) ∨
      (∃ s', (s.backend.writes t).isEmpty = true ∧
        s.participate t .prepare = (.ok (.readOnly true), s') ∧
          s.participate t .prepareAndCommit = (.ok .done, s')) ∨
      ∃ s' s'', (s.backend.writes t).isEmpty = false ∧
        s.participate t .prepare = (.ok (.readOnly false), s') ∧
          s'.participate t .commit = (.ok .done, s'') ∧
            s.participate t .prepareAndCommit = (.ok .done, s'') := by
  rcases henter : s.enter t .prepare with ⟨e | _, s₁⟩
  · exact Or.inl ⟨e, _, participate_of_refused henter, participate_of_refused henter⟩
  obtain ⟨hbackend, hcheck⟩ := checkPrepared_of_enter henter
  cases hshut : s₁.backend.isShutDown with
  | true =>
      exact Or.inl ⟨_, s₁, participate_of_isShutDown (by simp) henter hshut,
        participate_of_isShutDown (by simp) henter hshut⟩
  | false =>
      have hone : s₁.callBackend t .prepareAndCommit =
          (.committed .done,
            { s₁ with backend := (s₁.backend.discard t).apply (s₁.backend.writes t) }) := by
        simp [callBackend, Store.call, Backend.perform, Memory.perform_prepareAndCommit hshut]
      cases hempty : (s₁.backend.writes t).isEmpty with
      | true =>
          have hprepare : s₁.callBackend t .prepare =
              (.committed (.readOnly true), { s₁ with backend := s₁.backend.discard t }) := by
            simp [callBackend, Store.call, Backend.perform,
              Memory.perform_prepare_of_isEmpty hshut hempty]
          rw [Memory.apply_of_isEmpty hempty] at hone
          exact Or.inr (Or.inl ⟨_, by rwa [← hbackend], participate_of_committed henter hprepare,
            participate_of_committed henter hone⟩)
      | false =>
          have hprepare : s₁.callBackend t .prepare =
              (.ended (.ok (.readOnly false)),
                { s₁ with backend := s₁.backend.write t fun w => { w with prepared := true } }) := by
            simp [callBackend, Store.call, Backend.perform,
              Memory.perform_prepare_of_not_isEmpty hshut hempty]
          have hcommit : Store.callBackend t .commit
              { s₁ with backend := s₁.backend.write t fun w => { w with prepared := true } } =
                (.committed .done,
                  { s₁ with backend := (s₁.backend.discard t).apply (s₁.backend.writes t) }) := by
            simp [callBackend, Store.call, Backend.perform, Memory.perform_commit_of_prepare hshut,
              Memory.perform_prepareAndCommit hshut]
          exact Or.inr (Or.inr ⟨_, _, by rwa [← hbackend], participate_of_ended henter hprepare,
            participate_of_committed (congrArg (·, _) hcheck) hcommit,
            participate_of_committed henter hone⟩)

/-- Prepares the transaction, and commits it if that has left anything to commit. -/
def commitInTwo (t : TxnId) (s : Store ρo ρn Memory) : Except StoreError Reply × Store ρo ρn Memory :=
  match s.participate t .prepare with
  | (.ok (.readOnly false), s) => s.participate t .commit
  | ended => ended

/--
**A commit in one phase is a commit in two.**  Whatever the status of the transaction, the time, the
backend and the writes, the one succeeds exactly if the other does, and fails with the same failure
otherwise; and both leave the same store, with its register, its locks and its backend.  A prepare that
succeeds says whether the transaction has written anything.
-/
theorem prepareAndCommit_eq_commitInTwo (s : Store ρo ρn Memory) (t : TxnId) :
    (s.participate t .prepareAndCommit).1.map (fun _ => ()) =
        (s.commitInTwo t).1.map (fun _ => ()) ∧
      (s.participate t .prepareAndCommit).2 = (s.commitInTwo t).2 ∧
      ∀ reply, (s.participate t .prepare).1 = .ok reply →
        ∃ isReadOnly, reply = .readOnly isReadOnly ∧
          (isReadOnly = true ↔
            (∀ oid, (s.backend.writes t).objects.get? oid = none) ∧
              ∀ name, (s.backend.writes t).names.get? name = none) := by
  unfold commitInTwo
  rcases s.prepare_cases t with ⟨e, s', htwo, hone⟩ | ⟨s', hempty, htwo, hone⟩ |
    ⟨s', s'', hwrites, htwo, hcommit, hone⟩
  · rw [htwo, hone]
    refine ⟨rfl, rfl, fun reply hreply => ?_⟩
    cases hreply
  · rw [htwo, hone]
    refine ⟨rfl, rfl, fun reply hreply => ⟨true, ?_, ?_⟩⟩
    · cases hreply
      rfl
    · exact iff_of_true rfl ((WriteSet.isEmpty_iff _).mp hempty)
  · rw [htwo, hone]
    dsimp only
    rw [hcommit]
    refine ⟨rfl, rfl, fun reply hreply => ⟨false, ?_, ?_⟩⟩
    · cases hreply
      rfl
    · rw [← WriteSet.isEmpty_iff, hwrites]

/-- A transaction has made an object. -/
def oneMade : Store (OpenReporter ObjectId) (OpenReporter NameKey) Memory :=
  (((Store.new ⟨⟩ ⟨⟩ .empty).begin ⟨1⟩ ⟨0, 0⟩ 100).call ⟨1⟩ .create).2

/-- It has something to commit, in two phases as in one. -/
theorem prepareAndCommit_eq_commitInTwo_oneMade :
    (oneMade.participate ⟨1⟩ .prepareAndCommit).2 = (oneMade.commitInTwo ⟨1⟩).2 ∧
      (oneMade.participate ⟨1⟩ .prepare).1 = .ok (.readOnly false) ∧
      ¬((∀ oid, (oneMade.backend.writes ⟨1⟩).objects.get? oid = none) ∧
        ∀ name, (oneMade.backend.writes ⟨1⟩).names.get? name = none) := by
  obtain ⟨-, hsame, hprepare⟩ := prepareAndCommit_eq_commitInTwo oneMade ⟨1⟩
  have hanswer : (oneMade.participate ⟨1⟩ .prepare).1 = .ok (.readOnly false) := by decide
  refine ⟨hsame, hanswer, ?_⟩
  obtain ⟨isReadOnly, hreply, hnothing⟩ := hprepare _ hanswer
  cases hreply
  exact fun hnone => absurd (hnothing.mpr hnone) (by simp)

end Store

end ObjectStore
