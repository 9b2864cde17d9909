/-
What a participant call leaves behind when it fails.

A call looks at the status before it asks the backend, and moves the status as it looks.  A call that
the status forbids leaves everything as it was.  A call that the backend refuses fails halfway: a
prepare has moved its transaction to prepared by then, and there it stays, out of reach of wounds, with
nothing prepared.  A commit finds its transaction prepared, and does not move it; but a backend that
knows of no preparation loses the writes.

`Halted` lists these ends of a call that fails without aborting the transaction.
-/
import ObjectStore.Proofs.Store.Live
import ObjectStore.Proofs.Store.Participation

namespace ObjectStore

variable {ρo ρn : Type}

/-- What is left of a store by a call that fails and does not abort the transaction. -/
inductive Halted (s : Store ρo ρn Memory) (t : TxnId) (call : ParticipantCall) :
    Store ρo ρn Memory → Prop where
  /-- The status forbids the call. -/
  | forbidden {e : StoreError} {register : Register}
    (hlook : (call.look s.now (s.register.find t)).1 = .error e)
    (hregister : s.register.Becomes t (s.register.find t) register) :
    Halted s t call { s with register }
  /-- The backend is shut down, and the status has been moved already. -/
  | leftPrepared {register : Register} (hcall : call ≠ .commit)
    (hlook : (call.look s.now (s.register.find t)).1 = .ok ())
    (hactive : (s.register.find t).state = .active) (hshut : s.backend.isShutDown = true)
    (hregister : s.register.Becomes t { s.register.find t with state := .prepared } register) :
    Halted s t call { s with register }
  /-- The backend is shut down, and the transaction was prepared before. -/
  | unheard {register : Register} (hcall : call = .commit) (hshut : s.backend.isShutDown = true)
    (hregister : s.register.Becomes t (s.register.find t) register) :
    Halted s t call { s with register }
  /-- A commit finds writes that are not prepared. -/
  | loses {w : WriteSet} {register : Register} (hcall : call = .commit)
    (hlook : (call.look s.now (s.register.find t)).1 = .ok ())
    (hopen : s.backend.isShutDown = false) (hpending : s.backend.pending.get? t = some w)
    (hprepared : w.prepared = false)
    (hregister : s.register.Becomes t (s.register.find t) register) :
    Halted s t call { s with register, backend := s.backend.discard t }

namespace Store

variable [Reporter ρo ObjectId] [Reporter ρn NameKey]
variable {s s' : Store ρo ρn Memory} {t : TxnId} {call : ParticipantCall} {e : StoreError}

/-- **A call that fails comes to one of the listed ends.** -/
theorem halted_of_participate (hcall : call ≠ .abort) (h : s.participate t call = (.error e, s'))
    (habort : e.isAbort = false) : Halted s t call s' := by
  obtain ⟨register, henter, hregister⟩ := s.enter_eq t call
  cases hlook : (call.look s.now (s.register.find t)).1 with
  | error e' =>
      rw [hlook] at henter
      rw [participate_of_refused henter] at h
      cases h
      have hsame : (call.look s.now (s.register.find t)).2 = s.register.find t := by
        rcases Txn.look_error_cases hlook with ⟨-, hsame⟩ | ⟨hyes, -⟩
        · exact hsame
        · rw [habort] at hyes
          cases hyes
      rw [hsame] at hregister
      rw [noteFailure, Register.noteFailure_of_not_isAbort habort]
      exact .forbidden hlook hregister
  | ok _ =>
      rw [hlook] at henter
      obtain ⟨backend, hbackend⟩ := Store.callBackend_backend { s with register } t call
      rcases hcalled : Store.callBackend t call { s with register } with ⟨stage, s₂⟩
      obtain rfl : s₂ = { s with register, backend } := by rwa [hcalled] at hbackend
      -- Whatever else the backend may make of the call, the call succeeds.
      cases called_of_callBackend hcalled with
      | refused hshut =>
          rw [participate_of_failing henter hcalled] at h
          cases h
          rw [noteFailure, Register.noteFailure_of_not_isAbort habort]
          rcases Txn.look_ok_cases hlook with
            ⟨hkind, hactive, hlooked⟩ | ⟨hkind, -, hsame⟩ | ⟨hkind, -⟩
          · rw [hlooked] at hregister
            have hother : call ≠ .commit := by
              rintro rfl
              simp at hkind
            exact .leftPrepared hother hlook hactive hshut hregister
          · rw [hsame] at hregister
            exact .unheard hkind hshut hregister
          · exact absurd hkind hcall
      | loses hopen hpending hprepared =>
          rw [participate_of_failing henter hcalled] at h
          cases h
          rw [noteFailure, Register.noteFailure_of_not_isAbort habort]
          exact .loses rfl hlook hopen hpending hprepared hregister
      | commits =>
          rw [participate_of_committed henter hcalled] at h
          cases h
      | prepares =>
          rw [participate_of_ended henter hcalled] at h
          cases h
      | aborts => exact absurd rfl hcall

/--
**What fails halfway.**  A call other than an abort fails, and the failure does not abort the
transaction.  Locks, time and all other transactions are as before.

Its own transaction is as before too, unless the status allowed a prepare, or a commit in one phase.
Then the backend has been shut down, and the transaction is left prepared, where no wound reaches it.
The backend is as before, unless it is open and the status allowed a commit.  Then there are writes
which have not been prepared, and they are lost.
-/
theorem halfway_iff_of_participate (hcall : call ≠ .abort)
    (h : s.participate t call = (.error e, s')) (habort : e.isAbort = false) :
    let allowed := (call.look s.now (s.register.find t)).1 = .ok ()
    (s'.objects = s.objects ∧ s'.names = s.names ∧ s'.now = s.now ∧
        s'.isShutDown = s.isShutDown ∧ ∀ u, t ≠ u → s'.register.find u = s.register.find u) ∧
      (s'.register.find t = s.register.find t ↔ ¬(allowed ∧ call ≠ .commit)) ∧
      (allowed → call ≠ .commit →
        s.backend.isShutDown = true ∧ (s.register.find t).state = .active ∧
          s'.register.find t = { s.register.find t with state := .prepared } ∧
            ∀ reason, ((s'.register.find t).wound reason).1 = false) ∧
      (s'.backend = s.backend ↔ ¬(allowed ∧ call = .commit ∧ s.backend.isShutDown = false)) ∧
      (allowed → call = .commit → s.backend.isShutDown = false →
        ∃ w, s.backend.pending.get? t = some w ∧ w.prepared = false ∧
          s'.backend = s.backend.discard t) := by
  intro allowed
  cases halted_of_participate hcall h habort with
  | forbidden hlook hregister =>
      have hnot : ¬allowed := fun hyes => by cases hyes.symm.trans hlook
      exact ⟨⟨rfl, rfl, rfl, rfl, hregister.others⟩,
        iff_of_true hregister.self fun hhalf => hnot hhalf.1, fun hyes => absurd hyes hnot,
        iff_of_true rfl fun hhalf => hnot hhalf.1, fun hyes => absurd hyes hnot⟩
  | @leftPrepared register hother hlook hactive hshut hregister =>
      have hself : register.find t = { s.register.find t with state := .prepared } :=
        hregister.self
      have hmoved : register.find t ≠ s.register.find t := by
        intro hsame
        have hstill := hself.symm.trans hsame
        rw [← hstill] at hactive
        cases hactive
      refine ⟨⟨rfl, rfl, rfl, rfl, hregister.others⟩,
        iff_of_false hmoved fun hnot => hnot ⟨hlook, hother⟩, fun _ _ => ?_,
        iff_of_true rfl fun hhalf => hother hhalf.2.1, fun _ hkind => absurd hkind hother⟩
      refine ⟨hshut, hactive, hself, fun reason => ?_⟩
      rw [hself]
      rfl
  | unheard hkind hshut hregister =>
      have hclosed : ¬ s.backend.isShutDown = false := by simp [hshut]
      exact ⟨⟨rfl, rfl, rfl, rfl, hregister.others⟩,
        iff_of_true hregister.self fun hhalf => hhalf.2 hkind, fun _ hnot => absurd hkind hnot,
        iff_of_true rfl fun hhalf => hclosed hhalf.2.2, fun _ _ hopen => absurd hopen hclosed⟩
  | @loses w register hkind hlook hopen hpending hprepared hregister =>
      exact ⟨⟨rfl, rfl, rfl, rfl, hregister.others⟩,
        iff_of_true hregister.self fun hhalf => hhalf.2 hkind, fun _ hnot => absurd hkind hnot,
        iff_of_false (Memory.discard_ne_of_pending hpending) fun hnot =>
          hnot ⟨hlook, hkind, hopen⟩,
        fun _ _ _ => ⟨w, hpending, hprepared, rfl⟩⟩

/-- A transaction has begun. -/
def oneBegun : Store (OpenReporter ObjectId) (OpenReporter NameKey) Memory :=
  (Store.new ⟨⟩ ⟨⟩ .empty).begin ⟨1⟩ ⟨1, 0⟩ 100

/-- A commit that comes too early is forbidden, and changes nothing. -/
theorem halfway_iff_of_participate_oneBegun :
    (oneBegun.participate ⟨1⟩ .commit).1 =
        .error (.illegalState "transaction 1 is active, not prepared") ∧
      (oneBegun.participate ⟨1⟩ .commit).2.register.find ⟨1⟩ = oneBegun.register.find ⟨1⟩ ∧
      (oneBegun.participate ⟨1⟩ .commit).2.backend = oneBegun.backend := by
  have hfails : (oneBegun.participate ⟨1⟩ .commit).1 =
      .error (.illegalState "transaction 1 is active, not prepared") := by decide
  obtain ⟨-, hstatus, -, hbackend, -⟩ :=
    halfway_iff_of_participate (by decide) (Prod.ext hfails rfl) rfl
  exact ⟨hfails, hstatus.mpr (by simp), hbackend.mpr (by decide)⟩

/-- An older one has begun as well. -/
def elderBegun : Store (OpenReporter ObjectId) (OpenReporter NameKey) Memory :=
  oneBegun.begin ⟨2⟩ ⟨0, 0⟩ 100

/-- **A prepare that fails can leave its transaction prepared.**  Once the backend is shut down the
prepare fails; before it the transaction gives way to the older one, and after it no more. -/
theorem exists_prepared_of_failure :
    let s := elderBegun.shutdown.2
    let s' := (s.participate ⟨1⟩ .prepare).2
    (s.participate ⟨1⟩ .prepare).1 = .error (.illegalState "backend is shut down") ∧
      (s.register.find ⟨1⟩).state = .active ∧ (s'.register.find ⟨1⟩).state = .prepared ∧
      (s.register.find ⟨2⟩).seniority.olderThan (s.register.find ⟨1⟩).seniority = true ∧
      ((s.register.find ⟨1⟩).wound (.outranked ⟨2⟩)).1 = true ∧
      ((s'.register.find ⟨1⟩).wound (.outranked ⟨2⟩)).1 = false := by
  decide

end Store

/-! ### In a run -/

namespace Traffic

/-- **In a run, a call that fails leaves the backend as it is.**  The transaction of the call has no
other call under way: whoever is prepared then is known to the backend to be prepared. -/
theorem backend_of_failed {shards : Nat} {actions : List StoreAction} {t : TxnId}
    {call : ParticipantCall} {e : StoreError} {s' : LockingStore Memory}
    (hfree : ((Traffic.new shards Memory.empty).run actions).calls.get? t = none)
    (hcall : call ≠ .abort)
    (h : ((Traffic.new shards Memory.empty).run actions).store.participate t call = (.error e, s'))
    (habort : e.isAbort = false) :
    s'.backend = ((Traffic.new shards Memory.empty).run actions).store.backend := by
  cases Store.halted_of_participate hcall h habort with
  | loses hkind hlook hopen hpending hunprepared =>
      have hprepared : ((Traffic.new shards Memory.empty).run actions).store.register.stateOf t =
          .prepared := by
        subst hkind
        exact Txn.state_of_checkPrepared hlook
      obtain ⟨writes, hwrites, hflag⟩ := ((Sound.run shards actions).consistent t).isFlagged
        (by simp [hfree]) (by simp [hfree]) hprepared hopen
      cases hpending.symm.trans hwrites
      cases hunprepared.symm.trans hflag
  | _ => rfl

end Traffic

end ObjectStore
