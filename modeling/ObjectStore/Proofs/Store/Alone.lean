/-
A transaction that has the store to itself.

Nobody stands in its way.  Its lock calls are granted at once, the next name it has locked is still
the next name when it looks again, and so a point operation comes to its answer within five steps
and a commit within five as well.
-/
import ObjectStore.Proofs.Store.History

namespace ObjectStore

namespace StoreAction

/-- A point operation from beginning to end, with nothing in between. -/
def operateAlone (t : TxnId) (op : Operation) : List StoreAction :=
  .operate t op :: List.replicate 5 (.proceed t)

/-- A commit from beginning to end. -/
def commitAlone (t : TxnId) : List StoreAction :=
  .participate t .prepareAndCommit :: List.replicate 5 (.proceed t)

/-- A transaction from beginning to end. -/
def transactAlone (t : TxnId) (ops : List Operation) : List StoreAction :=
  .begin t ⟨0, 0⟩ 0 :: (ops.flatMap (operateAlone t) ++ commitAlone t)

end StoreAction

/-! ### Operations -/

/-- A plan that ends its operation unless somebody comes in between. -/
inductive Closes (m : Memory) (t : TxnId) : Plan → Prop where
  | answers {result : Except StoreError Reply} (htells : isFinding result = true) :
    Closes m t (.answer result)
  | confirms {name : Name} {wasBound : Bool} :
    Closes m t (.confirm (.removal name wasBound) (m.nextName? t (some name)))

/-- The stages of a point operation that nobody disturbs, by the number of steps that are left. -/
inductive Serving (m : Memory) (t : TxnId) (op : Operation) : Nat → Stage → Prop where
  | asks {key : NameKey} {mode : LockMode} {plan : Plan} (hpoint : plan.point? = some op) :
    Serving m t op 5 (.report (.name key mode) plan)
  | acts {plan : Plan} (hpoint : plan.point? = some op) : Serving m t op 4 (.act plan)
  | follows {key : NameKey} {mode : LockMode} {plan : Plan} (hcloses : Closes m t plan) :
    Serving m t op 3 (.report (.name key mode) plan)
  | closes {plan : Plan} (hcloses : Closes m t plan) : Serving m t op 2 (.act plan)
  | misses {e : StoreError} (htells : isFinding (.error e) = true) : Serving m t op 1 (.failing e)
  | ends {result : Except StoreError Reply} (htells : isFinding result = true) :
    Serving m t op 0 (.ended result)

/-- A store in which one transaction is active, and nobody else has a lock on a name. -/
structure Alone (s : LockingStore Memory) (t : TxnId) : Prop where
  find : s.register.find t = .start t ⟨0, 0⟩ s.now
  known : s.register.isKnown t = true
  distinct : s.names.table.Distinct
  mine : ∀ key, ∀ e ∈ s.names.table.requests key, e.owner = t
  isServed : s.backend.isShutDown = false

namespace Serving

variable {s s' : LockingStore Memory} {t : TxnId} {op : Operation} {stage stage' : Stage}
variable {m m' : Memory} {plan : Plan} {n : Nat}

theorem firstStage {name : Name} (hname : op.name? = some name) : Serving m t op 5 op.firstStage := by
  cases op <;> cases hname <;> exact .asks rfl

theorem ofResult {result : Except StoreError Reply} (htells : isFinding result = true) :
    ∃ n, n < 2 ∧ Serving m t op n (.ofResult result) := by
  cases result with
  | ok reply => exact ⟨0, by omega, .ends htells⟩
  | error e => exact ⟨1, by omega, .misses htells⟩

theorem of_point (hacted : Acted t m plan stage' m') (hpoint : plan.point? = some op)
    (hserved : m.isShutDown = false) : ∃ n, n < 4 ∧ Serving m' t op n stage' := by
  cases hacted with
  | fails _ hwhy =>
      rcases hwhy with ⟨hshut, -⟩ | hplain
      · exact absurd (hserved.symm.trans hshut) (by simp)
      · cases plan <;> simp [Plan.isPlain, Plan.point?] at hplain hpoint
  | plain _ hplain => cases plan <;> simp [Plan.isPlain, Plan.point?] at hplain hpoint
  | found => exact ⟨0, by omega, .ends rfl⟩
  | missed => exact ⟨3, by omega, .follows (.answers rfl)⟩
  | rebinds => exact ⟨0, by omega, .ends rfl⟩
  | binds => exact ⟨3, by omega, .follows (.answers rfl)⟩
  | unbinds => exact ⟨3, by omega, .follows .confirms⟩
  | foundUnbound => exact ⟨3, by omega, .follows .confirms⟩
  | _ => cases hpoint

/-- A plan that closes the operation does so: the next name is what it was. -/
theorem of_closes (hacted : Acted t m plan stage' m') (hcloses : Closes m t plan)
    (hserved : m.isShutDown = false) : ∃ n, n < 2 ∧ Serving m' t op n stage' := by
  cases hcloses with
  | answers htells =>
      cases hacted with
      | answers => exact ofResult htells
      | fails _ hwhy =>
          rcases hwhy with ⟨hshut, -⟩ | hplain
          · exact absurd (hserved.symm.trans hshut) (by simp)
          · exact absurd hplain (by simp [Plan.isPlain])
      | plain _ hplain => exact absurd hplain (by simp [Plan.isPlain])
  | @confirms name wasBound =>
      cases hacted with
      | settles => exact ofResult (by cases wasBound <;> rfl)
      | again _ hnext hother => exact absurd hnext.symm hother
      | fails _ hwhy =>
          rcases hwhy with ⟨hshut, -⟩ | hplain
          · exact absurd (hserved.symm.trans hshut) (by simp)
          · exact absurd hplain (by simp [Plan.isPlain])
      | plain _ hplain => exact absurd hplain (by simp [Plan.isPlain])

theorem isAbort_of_isFinding {e : StoreError} (htells : isFinding (.error e) = true) :
    e.isAbort = false := by
  cases e <;> first | rfl | exact absurd htells (by simp [isFinding])

/-- **A step of an operation that nobody disturbs brings it closer to an answer.** -/
theorem step (h : Serving s.backend t op n stage) (halone : Alone s t)
    (hstep : OperationStep s t stage stage' s') :
    Alone s' t ∧ s'.register = s.register ∧ ∃ n', n' < n ∧ Serving s'.backend t op n' stage' := by
  have hactive : Lockers.isActive s.register t = true := by
    show (s.register.find t).isActive = true
    rw [halone.find]
    rfl
  cases hstep with
  | reportsObject => cases h
  | wakes => cases h
  | @reportsName key mode plan turn register table stage' hturn hstage =>
      obtain ⟨rfl, rfl⟩ := LockTable.turn_alone hactive (halone.mine key) hturn
      have hspec := LockTable.turn_spec Register.final_aborted halone.distinct hturn
      have hrequests : ∀ key', key ≠ key' → table.requests key' = s.names.table.requests key' :=
        fun key' hkey => LockTable.requests_turn_of_ne hturn hkey
      have halone' : Alone { s with register := s.register, names := { s.names with table } } t := by
        refine ⟨halone.find, halone.known, halone.distinct.turn hturn, ?_, halone.isServed⟩
        intro key' e he
        by_cases hkey : key = key'
        · subst hkey
          by_contra hne
          exact hne (halone.mine key e (hspec.others e he hne))
        · exact halone.mine key' e (hrequests key' hkey ▸ he)
      cases hstage with
      | allowed =>
          refine ⟨halone', rfl, ?_⟩
          cases h with
          | asks hpoint => exact ⟨4, by omega, .acts hpoint⟩
          | follows hcloses => exact ⟨2, by omega, .closes hcloses⟩
  | @acts plan _ backend hact =>
      have hacted := acted_of_act hact
      have halone' : Alone { s with backend } t :=
        ⟨halone.find, halone.known, halone.distinct, halone.mine,
          hacted.isShutDown.trans halone.isServed⟩
      refine ⟨halone', rfl, ?_⟩
      cases h with
      | acts hpoint => exact of_point hacted hpoint halone.isServed
      | closes hcloses => exact of_closes hacted hcloses halone.isServed
  | @fails e =>
      cases h with
      | misses htells =>
          have hregister : s.register.noteFailure t e = s.register :=
            Register.noteFailure_of_not_isAbort (isAbort_of_isFinding htells)
          refine ⟨⟨?_, ?_, halone.distinct, halone.mine, halone.isServed⟩, hregister, 0, by omega,
            .ends htells⟩
          · show (s.register.noteFailure t e).find t = _
            rw [hregister]
            exact halone.find
          · show (s.register.noteFailure t e).isKnown t = true
            rw [hregister]
            exact halone.known

end Serving

/-! ### Runs -/

namespace Traffic

variable {w w' w'' : LockingTraffic Memory} {t : TxnId} {op : Operation} {events events' : List Event}

/-- Nothing has happened but what one transaction has done, shown by some events. -/
structure Within (t : TxnId) (w w' : LockingTraffic Memory) (events : List Event) : Prop where
  log : w'.log = w.log ++ events
  others : ∀ u, t ≠ u → transcript u events = []
  known : ∀ u, w'.store.register.isKnown u = true → w.store.register.isKnown u = true

namespace Within

theorem refl (t : TxnId) (w : LockingTraffic Memory) : Within t w w [] where
  log := (List.append_nil _).symm
  others := fun _ _ => rfl
  known := fun _ => id

theorem trans (h : Within t w w' events) (h' : Within t w' w'' events') :
    Within t w w'' (events ++ events') where
  log := by rw [h'.log, h.log, List.append_assoc]
  others := by
    intro u hu
    rw [transcript_append, h.others u hu, h'.others u hu]
    rfl
  known := fun u hu => h.known u (h'.known u hu)

end Within

theorem proceed_of_no_call (hfree : w.calls.get? t = none) (n : Nat) :
    w.run (List.replicate n (.proceed t)) = w := by
  induction n with
  | zero => rfl
  | succ n ih =>
      have hrest : w.perform (.proceed t) = w := by
        simp [perform, hfree]
      rw [List.replicate_succ, run_cons, hrest, ih]

/-- A step of an operation that is not its last shows nothing to learn. -/
theorem transcript_of_ne_ended {stage stage' : Stage} (h : ∀ result, stage' ≠ .ended result) :
    transcript t (Event.ofStep t op stage stage') = [] := by
  unfold Event.ofStep
  split
  · rfl
  · exact absurd rfl (h _)
  · rfl

/-- An operation that nobody disturbs comes to an answer that tells something. -/
theorem serve (k : Nat) : ∀ {n : Nat} {w : LockingTraffic Memory} {stage : Stage},
    Alone w.store t → w.calls.get? t = some (.operation op stage) →
    Serving w.store.backend t op n stage → 0 < n → n ≤ k →
    ∃ events result, Within t w (w.run (List.replicate k (.proceed t))) events ∧
      Alone (w.run (List.replicate k (.proceed t))).store t ∧
      (w.run (List.replicate k (.proceed t))).calls.get? t = none ∧
      transcript t events = finding op result ∧ isFinding result = true ∧ commits events = [] := by
  induction k with
  | zero =>
      intro n w stage _ _ _ hpos hle
      omega
  | succ k ih =>
      intro n w stage halone hcall hserving hpos hle
      have hcan : w.store.canStep t stage = true := by
        cases hserving with
        | ends => omega
        | _ => rfl
      have hstep := operationStep_step w.store t hcan
      rcases hnext : w.store.step t stage with ⟨stage', store⟩
      rw [hnext] at hstep
      obtain ⟨halone', hregister, n', hlt, hserving'⟩ := hserving.step halone hstep
      -- The first step, and then all others.
      have hfirst : w.perform (.proceed t) =
          { store
            calls := w.calls.change t (Call.ofStage op stage')
            log := w.log ++ Event.ofStep t op stage stage' } := by
        unfold perform
        simp only [hcall, hcan, if_true, proceedOperation, hnext]
      have hwithin : Within t w (w.perform (.proceed t)) (Event.ofStep t op stage stage') := by
        rw [hfirst]
        refine ⟨rfl, fun u hu => transcript_ofStep_of_ne hu op stage stage', ?_⟩
        intro u hu
        rwa [hregister] at hu
      have hleft : (w.perform (.proceed t)).calls.get? t = Call.ofStage op stage' := by
        rw [hfirst, FinMap.get?_change_self]
      have hstore : (w.perform (.proceed t)).store = store := by
        rw [hfirst]
      rw [List.replicate_succ, run_cons]
      by_cases hended : n' = 0
      · subst hended
        cases hserving' with
        | @ends result htells =>
            rw [proceed_of_no_call hleft]
            refine ⟨_, result, hwithin, hstore ▸ halone', hleft, ?_, htells, commits_ofStep _ _ _ _⟩
            cases stage <;> simp [Event.ofStep, transcript, Event.transcript]
      · have hgoing : ∀ result, stage' ≠ .ended result := by
          rintro result rfl
          cases hserving'
          exact hended rfl
        have hcall' : (w.perform (.proceed t)).calls.get? t = some (.operation op stage') := by
          rw [hleft]
          cases stage' with
          | ended result => exact absurd rfl (hgoing result)
          | _ => rfl
        obtain ⟨events, result, hrest, hthen, hfree, hlearned, htells, hnone⟩ :=
          ih (hstore ▸ halone') hcall' (hstore ▸ hserving') (Nat.pos_of_ne_zero hended)
            (by omega)
        refine ⟨_, result, hwithin.trans hrest, hthen, hfree, ?_, htells, ?_⟩
        · rw [transcript_append, transcript_of_ne_ended hgoing, hlearned]
          rfl
        · rw [commits_append, commits_ofStep, hnone]
          rfl

/-- **A point operation that nobody disturbs is answered.** -/
theorem operate_alone {name : Name} (hname : op.name? = some name) (halone : Alone w.store t)
    (hfree : w.calls.get? t = none) :
    ∃ events result, Within t w (w.run (StoreAction.operateAlone t op)) events ∧
      Alone (w.run (StoreAction.operateAlone t op)).store t ∧
      (w.run (StoreAction.operateAlone t op)).calls.get? t = none ∧
      transcript t events = [(op, result)] ∧ commits events = [] := by
  have hfreely : w.isFree t = true := isFree_iff.mpr ⟨halone.known, hfree⟩
  have hrefusal : op.refusal? = none := by
    cases op <;> cases hname <;> rfl
  have hcheck : (w.store.register.find t).checkActive w.store.now =
      (.ok (), w.store.register.find t) := by
    rw [halone.find]
    simp [Txn.checkActive, Txn.start, Txn.meetDeadline]
  have hfind : (w.store.register.update t (·.checkActive w.store.now)).2.find t =
      w.store.register.find t := by
    rw [Register.find_update_self, hcheck]
  have hknown : ∀ u, (w.store.register.update t (·.checkActive w.store.now)).2.isKnown u = true ↔
      t = u ∨ w.store.register.isKnown u = true := fun _ => Register.isKnown_update
  have hok : (w.store.register.update t (·.checkActive w.store.now)).1 = .ok () :=
    congrArg Prod.fst hcheck
  have hbegun : w.perform (.operate t op) =
      { w with
        store :=
          { w.store with register := (w.store.register.update t (·.checkActive w.store.now)).2 }
        calls := w.calls.insert t (.operation op op.firstStage) } := by
    unfold perform
    simp only [hfreely, if_true, Store.start, hrefusal, Store.checkActive, Store.updateTxn, hok]
  have hwithin : Within t w (w.perform (.operate t op)) [] := by
    rw [hbegun]
    refine ⟨(List.append_nil _).symm, fun _ _ => rfl, ?_⟩
    intro u hu
    rcases (hknown u).mp hu with rfl | hwas
    · exact halone.known
    · exact hwas
  have halone' : Alone (w.perform (.operate t op)).store t := by
    rw [hbegun]
    exact ⟨hfind.trans halone.find, (hknown t).mpr (Or.inl rfl), halone.distinct,
      halone.mine, halone.isServed⟩
  have hcall : (w.perform (.operate t op)).calls.get? t = some (.operation op op.firstStage) := by
    rw [hbegun, FinMap.get?_insert_self]
  obtain ⟨events, result, hrest, hthen, hended, hlearned, htells, hnone⟩ :=
    serve 5 halone' hcall (Serving.firstStage hname) (by omega) (Nat.le_refl 5)
  unfold StoreAction.operateAlone
  rw [run_cons]
  refine ⟨events, result, hwithin.trans hrest, hthen, hended, ?_, hnone⟩
  rw [hlearned]
  simp [finding, hname, htells]

theorem operate_each_alone (ops : List Operation) : ∀ {w : LockingTraffic Memory},
    (∀ op ∈ ops, op.name?.isSome = true) → Alone w.store t → w.calls.get? t = none →
    ∃ events, Within t w (w.run (ops.flatMap (StoreAction.operateAlone t))) events ∧
      Alone (w.run (ops.flatMap (StoreAction.operateAlone t))).store t ∧
      (w.run (ops.flatMap (StoreAction.operateAlone t))).calls.get? t = none ∧
      (transcript t events).map Prod.fst = ops ∧ commits events = [] := by
  induction ops with
  | nil =>
      intro w _ halone hfree
      exact ⟨[], .refl t w, halone, hfree, rfl, rfl⟩
  | cons op rest ih =>
      intro w hnames halone hfree
      obtain ⟨name, hname⟩ := Option.isSome_iff_exists.mp (hnames op List.mem_cons_self)
      obtain ⟨events, result, hfirst, halone', hfree', hlearned, hnone⟩ :=
        operate_alone hname halone hfree
      obtain ⟨events', hrest, hthen, hend, hlearned', hnone'⟩ :=
        ih (fun op' hop' => hnames op' (List.mem_cons_of_mem op hop')) halone' hfree'
      rw [List.flatMap_cons, run_append]
      refine ⟨events ++ events', hfirst.trans hrest, hthen, hend, ?_, ?_⟩
      · rw [transcript_append, List.map_append, hlearned, hlearned']
        rfl
      · rw [commits_append, hnone, hnone']
        rfl

/-! ### Commits -/

/-- A store in which nobody has a lock on a name. -/
structure Unlocked (s : LockingStore Memory) : Prop where
  requests : ∀ key, s.names.table.requests key = []
  isServed : s.backend.isShutDown = false

theorem proceed_participation {call : ParticipantCall} {stage stage' : ParticipantStage}
    {store : LockingStore Memory} (hcall : w.calls.get? t = some (.participation call stage))
    (hleft : 0 < stage.stepsLeft) (hstep : w.store.participantStep t stage = (stage', store))
    (hknown : ∀ u, store.register.isKnown u = true → w.store.register.isKnown u = true) :
    Within t w (w.perform (.proceed t)) (Event.ofParticipantStep t call stage stage') ∧
      (w.perform (.proceed t)).store = store ∧
        (w.perform (.proceed t)).calls.get? t = Call.ofParticipantStage call stage' := by
  have hperform : w.perform (.proceed t) =
      { store
        calls := w.calls.change t (Call.ofParticipantStage call stage')
        log := w.log ++ Event.ofParticipantStep t call stage stage' } := by
    unfold perform
    simp only [hcall, hleft, if_true, proceedParticipation, hstep]
  rw [hperform]
  refine ⟨⟨rfl, fun u _ => transcript_ofParticipantStep t u call stage stage', hknown⟩, rfl, ?_⟩
  rw [FinMap.get?_change_self]

theorem enter_alone {s : LockingStore Memory} (halone : Alone s t) :
    ∃ register, s.participantStep t (.enter .prepareAndCommit) =
        (.backend .prepareAndCommit, { s with register }) ∧
      ∀ u, register.isKnown u = true ↔ s.register.isKnown u = true := by
  have hprepare : ((s.register.find t).beginPrepare s.now).1 = .ok () := by
    rw [halone.find]
    simp [Txn.beginPrepare, Txn.start, Txn.meetDeadline]
  have hok : (s.register.update t (·.beginPrepare s.now)).1 = .ok () := hprepare
  refine ⟨(s.register.update t (·.beginPrepare s.now)).2, ?_, ?_⟩
  · simp only [Store.participantStep, Store.enter, Store.updateTxn, hok]
  · intro u
    refine (Register.isKnown_update (f := (·.beginPrepare s.now))).trans ?_
    refine ⟨?_, Or.inr⟩
    rintro (rfl | hwas)
    · exact halone.known
    · exact hwas

theorem callBackend_alone {s : LockingStore Memory} (hserved : s.backend.isShutDown = false) :
    ∃ reply backend, s.participantStep t (.backend .prepareAndCommit) =
        (.committed reply, { s with backend }) ∧ backend.isShutDown = false := by
  obtain ⟨backend, hbackend⟩ := s.callBackend_backend t .prepareAndCommit
  have hcalled : s.callBackend t .prepareAndCommit =
      ((s.callBackend t .prepareAndCommit).1, { s with backend }) := by
    rw [← hbackend]
  have hends := called_of_callBackend hcalled
  generalize (s.callBackend t .prepareAndCommit).1 = stage at hcalled hends
  cases hends with
  | refused hshut => exact absurd (hserved.symm.trans hshut) (by simp)
  | commits _ _ _ _ _ hstill => exact ⟨_, backend, hcalled, hstill⟩

/-- After a commit at the backend three steps are left: the status, and the two kinds of locks. -/
theorem complete_alone {reply : Reply}
    (hcall : w.calls.get? t = some (.participation .prepareAndCommit (.committed reply)))
    (hknown : w.store.register.isKnown t = true) (hdistinct : w.store.names.table.Distinct)
    (hmine : ∀ key, ∀ e ∈ w.store.names.table.requests key, e.owner = t)
    (hserved : w.store.backend.isShutDown = false) :
    ∃ events, Within t w (w.run (List.replicate 3 (.proceed t))) events ∧
      transcript t events = [] ∧ commits events = [] ∧
      Unlocked (w.run (List.replicate 3 (.proceed t))).store := by
  obtain ⟨h₁, hstore₁, hcall₁⟩ := proceed_participation hcall (by simp [ParticipantStage.stepsLeft])
    rfl (fun u hu => by
      rcases (Register.isKnown_update (f := fun txn => ((), txn.completeCommit))).mp hu with rfl | hwas
      · exact hknown
      · exact hwas)
  obtain ⟨h₂, hstore₂, hcall₂⟩ := proceed_participation hcall₁
    (by simp [ParticipantStage.stepsLeft]) rfl (fun u => id)
  obtain ⟨h₃, hstore₃, -⟩ := proceed_participation hcall₂ (by simp [ParticipantStage.stepsLeft]) rfl
    (fun u => id)
  have hrun : w.run (List.replicate 3 (.proceed t)) =
      ((w.perform (.proceed t)).perform (.proceed t)).perform (.proceed t) := rfl
  rw [hrun]
  refine ⟨_, (h₁.trans h₂).trans h₃, ?_, ?_, ?_⟩
  · simp only [transcript_append, transcript_ofParticipantStep, List.append_nil]
  · rfl
  have htable : ((w.perform (.proceed t)).perform (.proceed t)).store.names.table =
      w.store.names.table := by
    rw [hstore₂, hstore₁]
  have hserved' : ((w.perform (.proceed t)).perform (.proceed t)).store.backend.isShutDown =
      false := by
    rw [hstore₂, hstore₁]
    exact hserved
  rw [hstore₃]
  refine ⟨?_, hserved'⟩
  intro key
  show (((w.perform (.proceed t)).perform (.proceed t)).store.names.table.releaseAll t).requests
    key = []
  rw [htable, LockTable.requests_releaseAll]
  refine List.eq_nil_iff_forall_not_mem.mpr fun e he => ?_
  obtain ⟨hin, hne⟩ := (hdistinct key).mem_eraseP.mp he
  exact hne (hmine key e hin)

/-- **A transaction that nobody disturbs is committed**, and leaves no lock behind. -/
theorem commit_alone (halone : Alone w.store t) (hfree : w.calls.get? t = none) :
    ∃ events, Within t w (w.run (StoreAction.commitAlone t)) events ∧ transcript t events = [] ∧
      commits events = [t] ∧ Unlocked (w.run (StoreAction.commitAlone t)).store := by
  have hfreely : w.isFree t = true := isFree_iff.mpr ⟨halone.known, hfree⟩
  have hbegun : w.perform (.participate t .prepareAndCommit) =
      { w with
        calls := w.calls.insert t (.participation .prepareAndCommit (.enter .prepareAndCommit)) } := by
    unfold perform
    simp only [hfreely, if_true]
  have h₀ : Within t w (w.perform (.participate t .prepareAndCommit)) [] := by
    rw [hbegun]
    exact ⟨(List.append_nil _).symm, fun _ _ => rfl, fun _ => id⟩
  have hstore₀ : (w.perform (.participate t .prepareAndCommit)).store = w.store := by
    rw [hbegun]
  have hcall₀ : (w.perform (.participate t .prepareAndCommit)).calls.get? t =
      some (.participation .prepareAndCommit (.enter .prepareAndCommit)) := by
    rw [hbegun, FinMap.get?_insert_self]
  unfold StoreAction.commitAlone
  rw [run_cons, List.replicate_succ, run_cons, List.replicate_succ, run_cons]
  generalize w.perform (.participate t .prepareAndCommit) = w₀ at h₀ hstore₀ hcall₀ ⊢
  obtain ⟨register, hstep₁, hknown₁⟩ := enter_alone halone
  rw [← hstore₀] at hstep₁ hknown₁
  obtain ⟨h₁, hstore₁, hcall₁⟩ := proceed_participation hcall₀
    (by simp [ParticipantStage.stepsLeft]) hstep₁ (fun u => (hknown₁ u).mp)
  generalize w₀.perform (.proceed t) = w₁ at h₁ hstore₁ hcall₁ ⊢
  have hserved₁ : w₁.store.backend.isShutDown = false := by
    rw [hstore₁, hstore₀]
    exact halone.isServed
  obtain ⟨reply, backend, hstep₂, hserved₂⟩ := @callBackend_alone t w₁.store hserved₁
  obtain ⟨h₂, hstore₂, hcall₂⟩ := proceed_participation hcall₁
    (by simp [ParticipantStage.stepsLeft]) hstep₂ (fun u => id)
  generalize w₁.perform (.proceed t) = w₂ at h₂ hstore₂ hcall₂ ⊢
  have hknown₂ : w₂.store.register.isKnown t = true := by
    rw [hstore₂, hstore₁]
    refine (hknown₁ t).mpr ?_
    rw [hstore₀]
    exact halone.known
  obtain ⟨events, h₃, hlearned, hnone, hunlocked⟩ := complete_alone hcall₂ hknown₂
    (by rw [hstore₂, hstore₁, hstore₀]; exact halone.distinct)
    (by rw [hstore₂, hstore₁, hstore₀]; exact halone.mine) (by rw [hstore₂]; exact hserved₂)
  refine ⟨_, ((h₀.trans h₁).trans h₂).trans h₃, ?_, ?_, hunlocked⟩
  · rw [transcript_append, hlearned]
    rfl
  · rw [commits_append, hnone]
    rfl

end Traffic

end ObjectStore
