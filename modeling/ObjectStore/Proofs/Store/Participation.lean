/-
What a whole participant call does.

A participant call that nothing comes in between has few ends.  Its look at the status may refuse
it; the backend may refuse it; a prepare may leave the transaction prepared; and otherwise the call
finishes the transaction and releases its locks.  `Participated` lists them, and
`participated_participate` says that the list is complete.
-/
import ObjectStore.Proofs.Store.Ending
import ObjectStore.Proofs.Store.Step
import ObjectStore.Proofs.Transaction.Course

namespace ObjectStore

/-- The transaction that a failure speaks of. -/
def StoreError.txn? : StoreError → Option TxnId
  | .notActive txn _ => some txn
  | .aborted txn _ => some txn
  | _ => none

theorem StoreError.isAbort_of_txn?_eq_none {e : StoreError} (h : e.txn? = none) :
    e.isAbort = false := by
  cases e <;> simp_all [txn?, isAbort]

namespace Memory

variable {m m' : Memory} {t : TxnId} {e : StoreError}

theorem txn?_of_require {oid : ObjectId} (h : m.require t oid = .error e) : e.txn? = none := by
  unfold require at h
  split at h
  · cases h
  · cases h
    rfl

theorem txn?_of_set {oid : ObjectId} {data : Bytes} (h : m.set t oid data = (.error e, m')) :
    e.txn? = none := by
  unfold set at h
  split at h
  · cases h
  · cases h
    rfl

theorem txn?_of_setMany (items : List (ObjectId × Bytes)) :
    ∀ {m : Memory}, setMany t items m = (.error e, m') → e.txn? = none := by
  induction items with
  | nil => intro m h; cases h
  | cons item rest ih =>
      intro m h
      obtain ⟨oid, data⟩ := item
      rcases hset : m.set t oid data with ⟨_ | _, m₁⟩
      · simp only [setMany, hset] at h
        cases h
        exact txn?_of_set hset
      · simp only [setMany, hset] at h
        exact ih h

/-- **The backend's failures speak of no transaction.** -/
theorem txn?_of_perform {α : Type} {c : BackendCall α} (h : perform c t m = (.error e, m')) :
    e.txn? = none := by
  unfold perform at h
  split at h
  · cases h
    rfl
  · cases c with
    | mark oid =>
        cases hrequire : m.require t oid with
        | ok data => simp [performOpen, hrequire, Except.map] at h
        | error e' =>
            simp only [performOpen, hrequire, Except.map] at h
            cases h
            exact txn?_of_require hrequire
    | get oid =>
        simp only [performOpen, Prod.mk.injEq] at h
        exact txn?_of_require h.1
    | set oid data => exact txn?_of_set h
    | setMany items => exact txn?_of_setMany items h
    | remove oid =>
        cases hrequire : m.require t oid with
        | ok data => simp [performOpen, remove, hrequire] at h
        | error e' =>
            simp only [performOpen, remove, hrequire] at h
            cases h
            exact txn?_of_require hrequire
    | classId info =>
        simp only [performOpen, classId] at h
        split at h
        · cases h
        · split at h
          · cases h
          · cases h
            rfl
    | classInfo id =>
        simp only [performOpen, classInfo, Prod.mk.injEq] at h
        obtain ⟨herror, -⟩ := h
        split at herror
        · cases herror
          rfl
        · split at herror
          · cases herror
          · cases herror
            rfl
    | commit =>
        simp only [performOpen, commit] at h
        split at h
        · cases h
        · split at h
          · cases h
          · cases h
            rfl
    | _ => cases h

end Memory

/-! ### Operations -/

theorem OperationStep.course {s s' : LockingStore Memory} {t : TxnId} {stage stage' : Stage}
    (h : OperationStep s t stage stage' s') (hregular : s.register.Regular) :
    s.register.Course s'.register ∧ s.register.KeepsDone s'.register := by
  cases h with
  | reportsObject hturn =>
      have hwounded := Register.wounded_turn hturn
      exact ⟨hwounded.course hregular, hwounded.keepsDone⟩
  | reportsName hturn =>
      have hwounded := Register.wounded_turn hturn
      exact ⟨hwounded.course hregular, hwounded.keepsDone⟩
  | wakes => exact ⟨.refl hregular, fun _ => rfl⟩
  | acts => exact ⟨.refl hregular, fun _ => rfl⟩
  | fails =>
      exact ⟨Register.course_noteFailure hregular t _, Register.keepsDone_noteFailure _ t _⟩

/-! ### The look at the status -/

/-- The look at a status with which a participant call begins. -/
def ParticipantCall.look (call : ParticipantCall) (now : Nat) (t : Txn) :
    Except StoreError Unit × Txn :=
  match call with
  | .prepare => t.beginPrepare now
  | .prepareAndCommit => t.beginPrepare now
  | .commit => (t.checkPrepared, t)
  | .abort => t.beginParticipantAbort

/-- The status of one transaction has become `t`, and nothing else has happened. -/
structure Register.Becomes (r : Register) (id : TxnId) (t : Txn) (r' : Register) : Prop where
  self : r'.find id = t
  others : ∀ id', id ≠ id' → r'.find id' = r.find id'
  known : ∀ id', r.isKnown id' = true → r'.isKnown id' = true

namespace Register.Becomes

variable {r r' r'' : Register} {id : TxnId} {t t' : Txn}

theorem refl (r : Register) (id : TxnId) : r.Becomes id (r.find id) r :=
  ⟨rfl, fun _ _ => rfl, fun _ h => h⟩

theorem trans (h : r.Becomes id t r') (h' : r'.Becomes id t' r'') : r.Becomes id t' r'' where
  self := h'.self
  others := fun id' hne => (h'.others id' hne).trans (h.others id' hne)
  known := fun id' hknown => h'.known id' (h.known id' hknown)

theorem update {α : Type} (r : Register) (id : TxnId) (f : Txn → α × Txn) :
    r.Becomes id (f (r.find id)).2 (r.update id f).2 :=
  ⟨find_update_self, fun _ => find_update_of_ne, fun _ hknown => isKnown_update.mpr (Or.inr hknown)⟩

/-- The failure of a call whose transaction is not open, or that asks for no abort. -/
theorem noteFailure {e : StoreError} (h : e.isAbort = true → r.isOpen id = false) :
    r.Becomes id (r.find id) (r.noteFailure id e) where
  self := by
    cases habort : e.isAbort with
    | true => exact find_noteFailure_of_not_isOpen (h habort)
    | false => rw [noteFailure_of_not_isAbort habort]
  others := fun _ => find_noteFailure_of_ne
  known := fun _ => isKnown_noteFailure

theorem course (h : r.Becomes id t r') (hregular : r.Regular) (hcourse : (r.find id).Course t) :
    r.Course r' := by
  refine .of_find hregular ?_ h.known
  intro id'
  by_cases hne : id = id'
  · subst hne
    rwa [h.self]
  · rw [h.others id' hne]
    exact .refl (hregular.txn id')

end Register.Becomes

namespace Txn

variable {t : Txn} {call : ParticipantCall} {now : Nat} {e : StoreError}

theorem course_look (h : t.Regular) (call : ParticipantCall) (now : Nat) :
    Course t (call.look now t).2 := by
  cases call with
  | prepare => exact course_beginPrepare h now
  | commit => exact .refl h
  | prepareAndCommit => exact course_beginPrepare h now
  | abort => exact course_beginParticipantAbort h

/-- A look that fails leaves the transaction alone, or aborts it for being late. -/
theorem look_error_cases (h : (call.look now t).1 = .error e) :
    e.isAbort = false ∧ (call.look now t).2 = t ∨
      e.isAbort = true ∧ t.state = .active ∧ (call.look now t).2 = t.toAborted .timeout := by
  have hprepare : (t.beginPrepare now).1 = .error e →
      e.isAbort = false ∧ (t.beginPrepare now).2 = t ∨
        e.isAbort = true ∧ t.state = .active ∧ (t.beginPrepare now).2 = t.toAborted .timeout := by
    intro herror
    rcases t.beginPrepare_cases now with ⟨hok, -⟩ | ⟨e', he', herror'⟩ | ⟨hlate, hactive⟩
    · rw [hok] at herror
      cases herror
    · rw [herror'] at herror ⊢
      cases herror
      exact Or.inl ⟨he', rfl⟩
    · rw [hlate] at herror ⊢
      cases herror
      exact Or.inr ⟨rfl, hactive, rfl⟩
  cases call with
  | prepare => exact hprepare h
  | prepareAndCommit => exact hprepare h
  | commit =>
      have hcheck : t.checkPrepared = .error e := h
      refine Or.inl ⟨?_, rfl⟩
      unfold checkPrepared at hcheck
      split at hcheck
      · cases hcheck
        rfl
      · split at hcheck <;> cases hcheck <;> rfl
  | abort =>
      have habort : t.beginParticipantAbort.1 = .error e := h
      rcases beginParticipantAbort_cases (t := t) with ⟨hok, -⟩ | ⟨e', he', herror⟩
      · rw [hok] at habort
        cases habort
      · rw [herror] at habort
        cases habort
        exact Or.inl ⟨he', congrArg Prod.snd herror⟩

/-- A look that asks for an abort has aborted the transaction already. -/
theorem isOpen_of_look (h : (call.look now t).1 = .error e) (habort : e.isAbort = true) :
    (call.look now t).2.isOpen = false := by
  rcases look_error_cases h with ⟨he, -⟩ | ⟨-, -, hlate⟩
  · rw [he] at habort
    cases habort
  · rw [hlate]
    rfl

/-- A prepare finds its transaction active, a commit finds it prepared, and an abort finds it not
committed. -/
theorem look_ok_cases (h : (call.look now t).1 = .ok ()) :
    (call = .prepare ∨ call = .prepareAndCommit) ∧ t.state = .active ∧
        (call.look now t).2 = { t with state := .prepared } ∨
      call = .commit ∧ t.state = .prepared ∧ (call.look now t).2 = t ∨
        call = .abort ∧ t.state ≠ .committed ∧ (call.look now t).2.state = .aborted ∧
          (call.look now t).2.done = true := by
  have hprepare : (t.beginPrepare now).1 = .ok () →
      t.state = .active ∧ (t.beginPrepare now).2 = { t with state := .prepared } := by
    intro hpass
    rcases t.beginPrepare_cases now with ⟨hok, hactive⟩ | ⟨e', -, herror⟩ | ⟨hlate, -⟩
    · rw [hok]
      exact ⟨hactive, rfl⟩
    · rw [herror] at hpass
      cases hpass
    · rw [hlate] at hpass
      cases hpass
  cases call with
  | prepare => exact Or.inl ⟨Or.inl rfl, hprepare h⟩
  | prepareAndCommit => exact Or.inl ⟨Or.inr rfl, hprepare h⟩
  | commit => exact Or.inr (Or.inl ⟨rfl, state_of_checkPrepared h, rfl⟩)
  | abort =>
      have hpass : t.beginParticipantAbort.1 = .ok () := h
      refine Or.inr (Or.inr ⟨rfl, ?_⟩)
      show t.state ≠ .committed ∧ t.beginParticipantAbort.2.state = .aborted ∧
        t.beginParticipantAbort.2.done = true
      unfold beginParticipantAbort at hpass ⊢
      split
      · rename_i hdone
        rw [if_pos hdone] at hpass
        cases hpass
      · rename_i hdone
        rw [if_neg hdone] at hpass
        split
        · rename_i hcommitted
          rw [hcommitted] at hpass
          cases hpass
        · rename_i haborted
          exact ⟨by simp [haborted], haborted, rfl⟩
        · rename_i hactive
          exact ⟨by simp [hactive], rfl, rfl⟩
        · rename_i hprepared
          exact ⟨by simp [hprepared], rfl, rfl⟩

/-- Every call but an abort leaves the transaction prepared. -/
theorem state_of_look (h : (call.look now t).1 = .ok ()) (hcall : call ≠ .abort) :
    (call.look now t).2.state = .prepared := by
  rcases look_ok_cases h with ⟨-, -, hlooked⟩ | ⟨-, hprepared, hsame⟩ | ⟨habort, -⟩
  · rw [hlooked]
  · rwa [hsame]
  · exact absurd habort hcall

/-- Nobody but an abort makes the participant done by looking. -/
theorem done_of_look (h : call ≠ .abort ∨ ∃ e, (call.look now t).1 = .error e) :
    (call.look now t).2.done = t.done := by
  cases hlook : (call.look now t).1 with
  | error e =>
      rcases look_error_cases hlook with ⟨-, hsame⟩ | ⟨-, -, hlate⟩
      · rw [hsame]
      · rw [hlate]
        rfl
  | ok _ =>
      rcases look_ok_cases hlook with ⟨-, -, hlooked⟩ | ⟨-, -, hsame⟩ | ⟨habort, -⟩
      · rw [hlooked]
      · rw [hsame]
      · rcases h with hne | ⟨e, herror⟩
        · exact absurd habort hne
        · cases hlook.symm.trans herror

theorem look_of_done (h : t.done = true) (call : ParticipantCall) (now : Nat) :
    call.look now t = (.error t.alreadyFinished, t) := by
  cases call <;> simp [ParticipantCall.look, beginPrepare, checkPrepared, beginParticipantAbort, h]

theorem done_of_look_eq_ok (h : (call.look now t).1 = .ok ()) : t.done = false := by
  cases hdone : t.done with
  | false => rfl
  | true =>
      rw [look_of_done hdone call now] at h
      cases h

end Txn

/-! ### The whole call -/

namespace Store

section Whole

variable {ρo ρn β : Type} [Reporter ρo ObjectId] [Reporter ρn NameKey] [Backend β]
variable {s s₁ s₂ : Store ρo ρn β} {t : TxnId} {call : ParticipantCall} {e : StoreError}

/-- A call that the status forbids. -/
theorem participate_of_refused (henter : s.enter t call = (.error e, s₁)) :
    s.participate t call = (.error e, s₁.noteFailure t e) := by
  simp [participate, participantSteps, ParticipantStage.stepsLeft, participantStep, henter,
    ParticipantStage.result]

/-- A call that the backend refuses. -/
theorem participate_of_failing (henter : s.enter t call = (.ok (), s₁))
    (hcalled : s₁.callBackend t call = (.failing e, s₂)) :
    s.participate t call = (.error e, s₂.noteFailure t e) := by
  simp [participate, participantSteps, ParticipantStage.stepsLeft, participantStep, henter, hcalled,
    ParticipantStage.result]

/-- A call that the backend answers, with nothing left to do. -/
theorem participate_of_ended {result : Except StoreError Reply}
    (henter : s.enter t call = (.ok (), s₁))
    (hcalled : s₁.callBackend t call = (.ended result, s₂)) :
    s.participate t call = (result, s₂) := by
  simp [participate, participantSteps, ParticipantStage.stepsLeft, participantStep, henter, hcalled,
    ParticipantStage.result]

/-- A call that the backend answers, with locks left to be released. -/
theorem participate_of_releasing {reply : Reply} (henter : s.enter t call = (.ok (), s₁))
    (hcalled : s₁.callBackend t call = (.releaseObjects (.ok reply), s₂)) :
    s.participate t call =
      (.ok reply,
        { s₂ with
          objects := Reporter.finish t s₂.objects
          names := Reporter.finish t s₂.names }) := by
  simp [participate, participantSteps, ParticipantStage.stepsLeft, participantStep, henter, hcalled,
    ParticipantStage.ofResult, ParticipantStage.result]

/-- A call that commits. -/
theorem participate_of_committed {reply : Reply} (henter : s.enter t call = (.ok (), s₁))
    (hcalled : s₁.callBackend t call = (.committed reply, s₂)) :
    s.participate t call =
      (.ok reply,
        { s₂ with
          register := (s₂.register.update t fun txn => ((), txn.completeCommit)).2
          objects := Reporter.finish t s₂.objects
          names := Reporter.finish t s₂.names }) := by
  simp [participate, participantSteps, ParticipantStage.stepsLeft, participantStep, henter, hcalled,
    updateTxn, ParticipantStage.ofResult, ParticipantStage.result]

end Whole

end Store

/-- The ends of a participant call on `t` that nothing comes in between. -/
inductive Participated (s : LockingStore Memory) (t : TxnId) (call : ParticipantCall) :
    Except StoreError Reply → LockingStore Memory → Prop where
  /-- The status forbids it. -/
  | refused {e : StoreError} {register : Register}
    (hlook : (call.look s.now (s.register.find t)).1 = .error e)
    (hregister : s.register.Becomes t (call.look s.now (s.register.find t)).2 register) :
    Participated s t call (.error e) { s with register }
  /-- The backend refuses it. -/
  | fails {e : StoreError} {register : Register} {backend : Memory}
    (hlook : (call.look s.now (s.register.find t)).1 = .ok ()) (hcall : call ≠ .abort)
    (hregister : s.register.Becomes t (call.look s.now (s.register.find t)).2 register)
    (he : e.txn? = none) :
    Participated s t call (.error e) { s with register, backend }
  /-- There is something to commit, and it is ready. -/
  | prepares {register : Register} {backend : Memory} (hcall : call = .prepare)
    (hlook : (call.look s.now (s.register.find t)).1 = .ok ())
    (hregister : s.register.Becomes t (call.look s.now (s.register.find t)).2 register) :
    Participated s t call (.ok (.readOnly false)) { s with register, backend }
  | commits {reply : Reply} {register : Register} {backend : Memory} (hcall : call ≠ .abort)
    (hreply : reply = if call = .prepare then .readOnly true else .done)
    (hlook : (call.look s.now (s.register.find t)).1 = .ok ())
    (hregister : s.register.Becomes t (call.look s.now (s.register.find t)).2.completeCommit
      register) :
    Participated s t call (.ok reply)
      { s with
        register
        backend
        objects := s.objects.finish t
        names := s.names.finish t }
  | aborts {register : Register} {backend : Memory} (hcall : call = .abort)
    (hlook : (call.look s.now (s.register.find t)).1 = .ok ())
    (hregister : s.register.Becomes t (call.look s.now (s.register.find t)).2 register) :
    Participated s t call (.ok .done)
      { s with
        register
        backend
        objects := s.objects.finish t
        names := s.names.finish t }

namespace Store

variable {ρo ρn : Type} {t : TxnId} {call : ParticipantCall}

theorem enter_eq (s : Store ρo ρn Memory) (t : TxnId) (call : ParticipantCall) :
    ∃ register, s.enter t call =
        ((call.look s.now (s.register.find t)).1, { s with register }) ∧
      s.register.Becomes t (call.look s.now (s.register.find t)).2 register := by
  cases call with
  | prepare => exact ⟨_, rfl, .update _ _ (·.beginPrepare s.now)⟩
  | prepareAndCommit => exact ⟨_, rfl, .update _ _ (·.beginPrepare s.now)⟩
  | commit => exact ⟨s.register, rfl, .refl _ _⟩
  | abort => exact ⟨_, rfl, .update _ _ (·.beginParticipantAbort)⟩

/-- What the backend makes of a call that is not an abort. -/
theorem callBackend_cases (s : Store ρo ρn Memory) (t : TxnId) (hcall : call ≠ .abort) :
    ∃ backend, (∃ e, e.txn? = none ∧ s.callBackend t call = (.failing e, { s with backend })) ∨
      call = .prepare ∧
        s.callBackend t call = (.ended (.ok (.readOnly false)), { s with backend }) ∨
      s.callBackend t call =
        (.committed (if call = .prepare then .readOnly true else .done), { s with backend }) := by
  cases call with
  | prepare =>
      refine ⟨(Memory.perform .prepare t s.backend).2, ?_⟩
      unfold callBackend Store.call
      simp only [Backend.perform]
      rcases hperform : Memory.perform .prepare t s.backend with ⟨e | _ | _, m⟩
      · exact Or.inl ⟨e, Memory.txn?_of_perform hperform, rfl⟩
      · exact Or.inr (Or.inl ⟨trivial, rfl⟩)
      · exact Or.inr (Or.inr rfl)
  | commit =>
      refine ⟨(Memory.perform .commit t s.backend).2, ?_⟩
      unfold callBackend Store.call
      simp only [Backend.perform]
      rcases hperform : Memory.perform .commit t s.backend with ⟨e | _, m⟩
      · exact Or.inl ⟨e, Memory.txn?_of_perform hperform, rfl⟩
      · exact Or.inr (Or.inr rfl)
  | prepareAndCommit =>
      refine ⟨(Memory.perform .prepareAndCommit t s.backend).2, ?_⟩
      unfold callBackend Store.call
      simp only [Backend.perform]
      rcases hperform : Memory.perform .prepareAndCommit t s.backend with ⟨e | _, m⟩
      · exact Or.inl ⟨e, Memory.txn?_of_perform hperform, rfl⟩
      · exact Or.inr (Or.inr rfl)
  | abort => exact absurd rfl hcall

/-- **A participant call comes to one of the listed ends.** -/
theorem participated_participate (s : LockingStore Memory) (t : TxnId) (call : ParticipantCall) :
    Participated s t call (s.participate t call).1 (s.participate t call).2 := by
  obtain ⟨register, henter, hregister⟩ := s.enter_eq t call
  cases hlook : (call.look s.now (s.register.find t)).1 with
  | error e =>
      rw [hlook] at henter
      have hnote : s.register.Becomes t (call.look s.now (s.register.find t)).2
          (register.noteFailure t e) := by
        refine hregister.trans (hregister.self ▸ .noteFailure fun habort => ?_)
        rw [Register.isOpen, hregister.self]
        exact Txn.isOpen_of_look hlook habort
      rw [participate_of_refused henter]
      exact .refused hlook hnote
  | ok _ =>
      rw [hlook] at henter
      by_cases habort : call = .abort
      · subst habort
        have hcalled : Store.callBackend t .abort { s with register } =
            (.releaseObjects (.ok .done), { s with register, backend := s.backend.discard t }) := by
          simp [callBackend, Store.call, Backend.perform, Memory.perform_abort, Except.map]
        rw [participate_of_releasing henter hcalled]
        exact .aborts rfl hlook hregister
      · obtain ⟨backend, hfails | ⟨rfl, hprepares⟩ | hcommits⟩ :=
          callBackend_cases { s with register } t habort
        · obtain ⟨e, he, hcalled⟩ := hfails
          rw [participate_of_failing henter hcalled, noteFailure,
            Register.noteFailure_of_not_isAbort (StoreError.isAbort_of_txn?_eq_none he)]
          exact .fails hlook habort hregister he
        · rw [participate_of_ended henter hprepares]
          exact .prepares rfl hlook hregister
        · have hcommitted := Register.Becomes.update register t fun txn => ((), txn.completeCommit)
          rw [hregister.self] at hcommitted
          rw [participate_of_committed henter hcommits]
          exact .commits habort rfl hlook (hregister.trans hcommitted)

end Store

end ObjectStore
