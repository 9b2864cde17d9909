/-
Whether errors and statuses agree in a run.

A failure fits the status of its transaction where it is put together, and the transaction learns of
it in the next step of its call.  Before that step, as between any two steps of a call, somebody else
may abort the transaction, and nothing else can happen to it (`UnderWay.find_or_struck`).  So a failure
says what is recorded unless its transaction is struck before it has learnt of the failure, and an
operation that fails otherwise leaves its transaction active unless that is struck before the
operation has ended (`Traffic.errors_agree`).
-/
import Mathlib.Data.List.Induction
import ObjectStore.Proofs.Store.Beside
import ObjectStore.Proofs.Store.Failures
import ObjectStore.Proofs.Store.Leaving

namespace ObjectStore

/-! ### Moments of a run -/

namespace Traffic

variable {w w' : LockingTraffic Memory} {actions early : List StoreAction} {a : StoreAction}
variable {t u : TxnId} {op : Operation} {stage stage' : Stage} {e : StoreError}

/-- Since the actions `early`, one that belongs to no call of the transaction has aborted it. -/
def Struck (w : LockingTraffic Memory) (actions early : List StoreAction) (t : TxnId) : Prop :=
  ∃ before a after, actions = before ++ a :: after ∧ early <+: before ∧ a.actor? ≠ some t ∧
    (w.run before).store.register.isOpen t = true ∧
    (w.run (before ++ [a])).store.register.stateOf t = .aborted

/-- The operation has been under way since the actions `early`. -/
structure UnderWay (w : LockingTraffic Memory) (actions early : List StoreAction) (t : TxnId)
    (op : Operation) : Prop where
  since : early <+: actions
  call : ∀ moment, early <+: moment → moment <+: actions →
    ∃ stage, (w.run moment).calls.get? t = some (.operation op stage)

/-- The operation was called right after the actions `early`, and has been under way since. -/
structure Called (w : LockingTraffic Memory) (actions early : List StoreAction) (t : TxnId)
    (op : Operation) : Prop extends UnderWay w actions (early ++ [.operate t op]) t op where
  free : (w.run early).isFree t = true

/-- The actions `early` have brought the operation to where it is about to fail, and it has not
failed yet. -/
structure Failing (w : LockingTraffic Memory) (actions early : List StoreAction) (t : TxnId)
    (op : Operation) (e : StoreError) : Prop where
  since : early <+: actions
  call : ∀ moment, early <+: moment → moment <+: actions →
    (w.run moment).calls.get? t = some (.operation op (.failing e))
  fresh : ∃ before a, early = before ++ [a] ∧
    (w.run before).calls.get? t ≠ some (.operation op (.failing e))

theorem Failing.underWay (h : w.Failing actions early t op e) : w.UnderWay actions early t op :=
  ⟨h.since, fun moment hfrom hto => ⟨_, h.call moment hfrom hto⟩⟩

theorem UnderWay.concat (h : w.UnderWay actions early t op)
    (hcall : (w.run (actions ++ [a])).calls.get? t = some (.operation op stage)) :
    w.UnderWay (actions ++ [a]) early t op where
  since := h.since.trans (List.prefix_append _ _)
  call := by
    intro moment hfrom hto
    rcases List.prefix_concat_iff.mp hto with rfl | hbefore
    · exact ⟨stage, hcall⟩
    · exact h.call moment hfrom hbefore

theorem Failing.concat (h : w.Failing actions early t op e)
    (hcall : (w.run (actions ++ [a])).calls.get? t = some (.operation op (.failing e))) :
    w.Failing (actions ++ [a]) early t op e where
  since := h.since.trans (List.prefix_append _ _)
  call := by
    intro moment hfrom hto
    rcases List.prefix_concat_iff.mp hto with rfl | hbefore
    · exact hcall
    · exact h.call moment hfrom hbefore
  fresh := h.fresh

theorem Struck.concat (h : w.Struck actions early t) : w.Struck (actions ++ [a]) early t := by
  obtain ⟨before, b, after, rfl, hearly, hother, hopen, haborted⟩ := h
  exact ⟨before, b, after ++ [a], by simp, hearly, hother, hopen, haborted⟩

/-! ### What one action does to a transaction -/

theorem find_operationStep {s s' : LockingStore Memory} (op : Operation)
    (h : OperationStep s t stage stage' s') (hgoes : Call.ofStage op stage' ≠ none) :
    s'.register.find t = s.register.find t := by
  cases h with
  | reportsObject hturn => exact Register.find_turn_self hturn
  | reportsName hturn => exact Register.find_turn_self hturn
  | fails => exact absurd rfl hgoes
  | _ => rfl

/-- An action while an operation is under way leaves the transaction as it is, or it is none of its
own and aborts it. -/
theorem find_perform (hknown : w.store.register.isKnown t = true)
    (hcall : w.calls.get? t = some (.operation op stage))
    (hcall' : (w.perform a).calls.get? t = some (.operation op stage')) :
    (w.perform a).store.register.find t = w.store.register.find t ∨
      a.actor? ≠ some t ∧ w.store.register.isOpen t = true ∧
        (w.perform a).store.register.stateOf t = .aborted := by
  by_cases hactor : a.actor? = some t
  · refine Or.inl ?_
    have hbusy : w.isFree t = false := by
      cases hfree : w.isFree t with
      | false => rfl
      | true => cases (isFree_iff.mp hfree).2.symm.trans hcall
    cases a with
    | operate u op' =>
        cases hactor
        simp [perform, hbusy]
    | participate u call =>
        cases hactor
        simp [perform, hbusy]
    | proceed u =>
        cases hactor
        simp only [perform, hcall] at hcall' ⊢
        split at hcall'
        · rename_i hcan
          rw [if_pos hcan]
          refine find_operationStep op (operationStep_step w.store t hcan) fun hnone => ?_
          simp only [proceedOperation, FinMap.get?_change_self] at hcall'
          cases hnone.symm.trans hcall'
        · rename_i hcannot
          rw [if_neg hcannot]
    | _ => cases hactor
  · have hmove := move_perform w a
    generalize w.perform a = w' at hmove hcall'
    rcases hmove.beside_or_own t with hbeside | hown
    · rcases hbeside.status with hsame | ⟨hopen, -, haborted⟩
      · exact Or.inl hsame
      · exact Or.inr ⟨hactor, hopen, haborted⟩
    · refine Or.inl ?_
      cases hown with
      | begins hnew => cases hnew.symm.trans hknown
      | starts hfree => cases hfree.symm.trans hcall
      | participates hfree => cases hfree.symm.trans hcall
      | @operation op' _ _ _ _ hstep =>
          refine find_operationStep op' hstep fun hnone => ?_
          rw [FinMap.get?_change_self] at hcall'
          cases hnone.symm.trans hcall'
      | participation hcall'' => cases hcall''.symm.trans hcall

/-- **Nothing happens to a transaction while its operation is under way, but that it is struck.** -/
theorem UnderWay.find_or_struck (h : w.UnderWay actions early t op)
    (hknown : (w.run early).store.register.isKnown t = true) :
    (w.run actions).store.register.find t = (w.run early).store.register.find t ∨
      w.Struck actions early t := by
  obtain ⟨rest, rfl⟩ := h.since
  induction rest using List.reverseRecOn with
  | nil => exact Or.inl (by rw [List.append_nil])
  | append_singleton rest a ih =>
      rw [← List.append_assoc] at h ⊢
      have hbefore : w.UnderWay (early ++ rest) early t op :=
        ⟨List.prefix_append _ _, fun moment hfrom hto =>
          h.call moment hfrom (hto.trans (List.prefix_append _ _))⟩
      obtain ⟨stage, hcall⟩ := h.call (early ++ rest) (List.prefix_append _ _) (List.prefix_append _ _)
      obtain ⟨stage', hcall'⟩ := h.call (early ++ rest ++ [a])
        ((List.prefix_append early rest).trans (List.prefix_append _ _)) List.prefix_rfl
      rw [run_concat] at hcall' ⊢
      have hstill : (w.run (early ++ rest)).store.register.isKnown t = true := by
        rw [run_append]
        exact (after_run rest (w.run early)).known t hknown
      rcases find_perform hstill hcall hcall' with hsame | ⟨hother, hopen, haborted⟩
      · exact (ih hbefore).imp hsame.trans Struck.concat
      · refine Or.inr ⟨early ++ rest, a, [], by simp, List.prefix_append _ _, hother, hopen, ?_⟩
        rw [run_concat]
        exact haborted

/-- A transaction whose operation is under way after an action, but was not before, has called it in
that action. -/
theorem operate_of_begins (hnone : w.calls.get? t = none)
    (hcall : (w.perform a).calls.get? t = some (.operation op stage)) : a = .operate t op := by
  have hsame : ∀ {calls : FinMap TxnId Call}, calls = w.calls →
      calls.get? t ≠ some (.operation op stage) := by
    rintro calls rfl hc
    cases hnone.symm.trans hc
  cases a with
  | operate u op' =>
      simp only [perform] at hcall
      split at hcall
      · rw [FinMap.get?_insert] at hcall
        split at hcall
        · rename_i hu
          subst hu
          cases hcall
          rfl
        · exact absurd hcall (hsame rfl)
      · exact absurd hcall (hsame rfl)
  | participate u call =>
      simp only [perform] at hcall
      split at hcall
      · rw [FinMap.get?_insert] at hcall
        split at hcall
        · cases hcall
        · exact absurd hcall (hsame rfl)
      · exact absurd hcall (hsame rfl)
  | proceed u =>
      have hu : u ≠ t := by
        rintro rfl
        simp only [perform, hnone] at hcall
        cases hcall
      simp only [perform] at hcall
      split at hcall
      · exact absurd hcall (hsame rfl)
      · split at hcall
        · simp only [proceedOperation, FinMap.get?_change, if_neg hu] at hcall
          exact absurd hcall (hsame rfl)
        · exact absurd hcall (hsame rfl)
      · split at hcall
        · simp only [proceedParticipation, FinMap.get?_change, if_neg hu] at hcall
          exact absurd hcall (hsame rfl)
        · exact absurd hcall (hsame rfl)
  | _ =>
      simp only [perform] at hcall
      first
        | exact absurd hcall (hsame rfl)
        | (split at hcall <;> exact absurd hcall (hsame rfl))

/-! ### Every call is accounted for -/

/-- The transaction was left as it is in the action with which it called the operation. -/
def Entered (w : LockingTraffic Memory) (early : List StoreAction) (t : TxnId) (op : Operation) : Prop :=
  (w.run (early ++ [.operate t op])).store.register.find t = (w.run early).store.register.find t

/-- What has brought an operation to its stage that was called right after `early`. -/
inductive Reaches (w : LockingTraffic Memory) (actions early : List StoreAction) (t : TxnId)
    (op : Operation) : Stage → Prop where
  | goesOn {stage : Stage} (hgoes : ∀ e, stage ≠ .failing e) (hdiscreet : stage.Discreet)
    (hentered : w.Entered early t op) : Reaches w actions early t op stage
  | fails {failed : List StoreAction} {e : StoreError} (hfailing : w.Failing actions failed t op e)
    (htrue : e.IsTrueOf t (((w.run failed).store.register.find t).noted e))
    (hentered : e.txn? = none → w.Entered early t op) : Reaches w actions early t op (.failing e)

/-- The statuses are in order, and every call is accounted for. -/
structure Tracked (w : LockingTraffic Memory) (actions : List StoreAction) : Prop where
  regular : (w.run actions).store.register.Regular
  known : ∀ t call, (w.run actions).calls.get? t = some call →
    (w.run actions).store.register.isKnown t = true
  operations : ∀ t op stage, (w.run actions).calls.get? t = some (.operation op stage) →
    ∃ early, w.Called actions early t op ∧ w.Reaches actions early t op stage
  participations : ∀ t call stage, (w.run actions).calls.get? t = some (.participation call stage) →
    stage.Truthful t ((w.run actions).store.register.find t)

theorem tracked_new (shards : Nat) : (new shards Memory.empty).Tracked [] where
  regular := Register.regular_empty
  known := fun _ _ h => by cases h
  operations := fun _ _ _ h => by cases h
  participations := fun _ _ _ h => by cases h

/-- **Every action moves the statuses along their course.** -/
theorem Move.course (hmove : w.Move w') (hregular : w.store.register.Regular)
    (htruthful : ∀ t call stage, w.calls.get? t = some (.participation call stage) →
      stage.Truthful t (w.store.register.find t)) :
    w.store.register.Course w'.store.register := by
  cases hmove with
  | rest => exact .refl hregular
  | aside => exact .refl hregular
  | shutsDown => exact .refl hregular
  | @aborts t register hself hother hknown =>
      refine .of_find hregular (fun u => ?_) hknown
      by_cases hu : t = u
      · subst hu
        rcases hself with hsame | ⟨hopen, -, cause, haborted⟩
        · rw [hsame]
          exact .refl (hregular.txn t)
        · rw [haborted]
          exact Txn.course_toAborted (hregular.txn t) hopen cause
      · rw [hother u hu]
        exact .refl (hregular.txn u)
  | own h =>
      cases h with
      | begins hnew => exact Register.course_start hregular hnew _ _
      | starts _ _ hwounded => exact hwounded.course hregular
      | participates => exact .refl hregular
      | operation _ hstep => exact (hstep.course hregular).1
      | participation hcall _ htaken =>
          exact (ParticipantStage.truthful_step hregular (htruthful _ _ _ hcall) htaken).1

/-- Others leave a call where it is. -/
theorem Reaches.concat (h : w.Reaches actions early t op stage)
    (hcall : (w.run (actions ++ [a])).calls.get? t = some (.operation op stage)) :
    w.Reaches (actions ++ [a]) early t op stage := by
  cases h with
  | goesOn hgoes hdiscreet hentered => exact .goesOn hgoes hdiscreet hentered
  | fails hfailing htrue hentered => exact .fails (hfailing.concat hcall) htrue hentered

/-- A call that has just come to a stage where it is truthful. -/
theorem reaches_now (htruthful : stage.Truthful t ((w.run (actions ++ [a])).store.register.find t))
    (hcall : (w.run (actions ++ [a])).calls.get? t = some (.operation op stage))
    (hfresh : ∀ e, (w.run actions).calls.get? t ≠ some (.operation op (.failing e)))
    (hentered : w.Entered early t op ∨ ∃ e, stage = .failing e ∧ e.txn? ≠ none) :
    w.Reaches (actions ++ [a]) early t op stage := by
  by_cases hfails : ∃ e, stage = .failing e
  · obtain ⟨e, rfl⟩ := hfails
    have hfailing : w.Failing (actions ++ [a]) (actions ++ [a]) t op e := by
      refine ⟨List.prefix_rfl, fun moment hfrom hto => ?_, actions, a, rfl, hfresh e⟩
      rw [hto.eq_of_length_le hfrom.length_le]
      exact hcall
    refine .fails hfailing htruthful fun hnone => ?_
    rcases hentered with hentered | ⟨e', heq, hsome⟩
    · exact hentered
    · cases heq
      exact absurd hnone hsome
  · have hgoes : ∀ e, stage ≠ .failing e := fun e he => hfails ⟨e, he⟩
    refine .goesOn hgoes (htruthful.discreet hgoes) (hentered.resolve_right ?_)
    rintro ⟨e, he, -⟩
    exact hgoes e he

theorem Tracked.known_concat (h : w.Tracked actions) {call : Call}
    (hcall : ((w.run actions).perform a).calls.get? t = some call) :
    ((w.run actions).perform a).store.register.isKnown t = true := by
  have hmove := move_perform (w.run actions) a
  have hcourse := hmove.course h.regular h.participations
  generalize (w.run actions).perform a = w' at hmove hcourse hcall
  refine hcourse.known t ?_
  rcases hmove.beside_or_own t with hbeside | hown
  · exact h.known t call (hbeside.call ▸ hcall)
  · cases hown with
    | begins => exact h.known t call hcall
    | starts _ hknown => exact hknown
    | participates _ hknown => exact hknown
    | operation hbefore => exact h.known t _ hbefore
    | participation hbefore => exact h.known t _ hbefore

theorem Tracked.operation_concat (h : w.Tracked actions)
    (hcall : (w.run (actions ++ [a])).calls.get? t = some (.operation op stage)) :
    ∃ early, w.Called (actions ++ [a]) early t op ∧ w.Reaches (actions ++ [a]) early t op stage := by
  have hnext := run_concat actions a w
  have hmove := move_perform (w.run actions) a
  have hafter : ((w.run actions).perform a).calls.get? t = some (.operation op stage) := hnext ▸ hcall
  have hstays : ∀ {stage₀}, (w.run actions).calls.get? t = some (.operation op stage₀) →
      ∃ early, w.Called (actions ++ [a]) early t op ∧ w.Reaches actions early t op stage₀ := by
    intro stage₀ hbefore
    obtain ⟨early, hcalled, hreaches⟩ := h.operations t op stage₀ hbefore
    exact ⟨early, ⟨hcalled.toUnderWay.concat hcall, hcalled.free⟩, hreaches⟩
  generalize hw' : (w.run actions).perform a = w' at hmove hafter
  rcases hmove.beside_or_own t with hbeside | hown
  · obtain ⟨early, hcalled, hreaches⟩ := hstays (hbeside.call ▸ hafter)
    exact ⟨early, hcalled, hreaches.concat hcall⟩
  · cases hown with
    | begins hnew => cases hnew.symm.trans (h.known t _ hafter)
    | @starts op' stage' register hfree hknown _ _ hstart =>
        obtain rfl := operate_of_begins hfree (hnext ▸ hcall)
        rw [FinMap.get?_insert_self] at hafter
        cases hafter
        obtain ⟨htruthful, hentered⟩ := Stage.truthful_start h.regular hstart
        have hregister : (w.run (actions ++ [.operate t op])).store.register = register := by
          rw [hnext, hw']
        refine ⟨actions, ⟨⟨List.prefix_rfl, fun moment hfrom hto => ⟨stage, ?_⟩⟩,
          isFree_iff.mpr ⟨hknown, hfree⟩⟩, reaches_now (hregister ▸ htruthful) hcall ?_ ?_⟩
        · rw [hto.eq_of_length_le hfrom.length_le]
          exact hcall
        · intro e hc
          cases hfree.symm.trans hc
        · refine hentered.imp_left fun hsame => ?_
          rw [Entered, hregister]
          exact hsame
    | participates => cases (FinMap.get?_insert_self _ _ _).symm.trans hafter
    | @operation op' stage₀ stage' store hbefore hstep htaken =>
        rw [FinMap.get?_change_self] at hafter
        obtain ⟨rfl, rfl⟩ := Call.ofStage_eq hafter
        obtain ⟨early, hcalled, hreaches⟩ := hstays hbefore
        have hstore : (w.run (actions ++ [a])).store = store := by rw [hnext, hw']
        cases hreaches with
        | goesOn hgoes hdiscreet hentered =>
            have htruthful := (Stage.truthful_step h.regular hdiscreet hgoes htaken).2
            refine ⟨early, hcalled, reaches_now (hstore ▸ htruthful) hcall (fun e hc => ?_)
              (Or.inl hentered)⟩
            cases hbefore.symm.trans hc
            exact hgoes e rfl
        | fails =>
            cases htaken
            cases hafter
    | participation =>
        rw [FinMap.get?_change_self] at hafter
        exact absurd hafter (Call.ofParticipantStage_ne_operation _ _ _ _)

theorem Tracked.participation_concat (h : w.Tracked actions) {call : ParticipantCall}
    {stage : ParticipantStage}
    (hcall : ((w.run actions).perform a).calls.get? t = some (.participation call stage)) :
    stage.Truthful t (((w.run actions).perform a).store.register.find t) := by
  have hmove := move_perform (w.run actions) a
  generalize (w.run actions).perform a = w' at hmove hcall
  rcases hmove.beside_or_own t with hbeside | hown
  · have hbefore : (w.run actions).calls.get? t = some (.participation call stage) :=
      hbeside.call ▸ hcall
    have htruthful := h.participations t call stage hbefore
    rcases hbeside.status with hsame | ⟨-, hwhen, -⟩
    · rw [hsame]
      exact htruthful
    · refine htruthful.aborted (hwhen.resolve_right ?_)
      simp [isParticipating, hbefore]
  · cases hown with
    | begins hnew => cases hnew.symm.trans (h.known t _ hcall)
    | starts => cases (FinMap.get?_insert_self _ _ _).symm.trans hcall
    | participates =>
        rw [FinMap.get?_insert_self] at hcall
        cases hcall
        trivial
    | @operation op stage₀ stage' =>
        rw [FinMap.get?_change_self] at hcall
        cases stage' <;> cases hcall
    | @participation call' stage₀ stage' store hbefore hstep htaken =>
        rw [FinMap.get?_change_self] at hcall
        have htruthful :=
          (ParticipantStage.truthful_step h.regular (h.participations t call' stage₀ hbefore) htaken).2
        cases stage' <;> cases hcall <;> exact htruthful

/-- **Every action leaves every call accounted for.** -/
theorem Tracked.concat (h : w.Tracked actions) (a : StoreAction) : w.Tracked (actions ++ [a]) where
  regular := by
    rw [run_concat]
    exact ((move_perform _ a).course h.regular h.participations).regular
  known := by
    intro t call hcall
    rw [run_concat] at hcall ⊢
    exact h.known_concat hcall
  operations := fun _ _ _ hcall => h.operation_concat hcall
  participations := by
    intro t call stage hcall
    rw [run_concat] at hcall ⊢
    exact h.participation_concat hcall

theorem tracked_run (shards : Nat) (actions : List StoreAction) :
    (new shards Memory.empty).Tracked actions := by
  induction actions using List.reverseRecOn with
  | nil => exact tracked_new shards
  | append_singleton actions a ih => exact ih.concat a

theorem course_run (shards : Nat) (actions later : List StoreAction) :
    ((new shards Memory.empty).run actions).store.register.Course
      ((new shards Memory.empty).run (actions ++ later)).store.register := by
  induction later using List.reverseRecOn with
  | nil =>
      rw [List.append_nil]
      exact .refl (tracked_run shards actions).regular
  | append_singleton later a ih =>
      have htracked := tracked_run shards (actions ++ later)
      rw [← List.append_assoc, run_concat]
      exact ih.trans ((move_perform _ a).course htracked.regular htracked.participations)

/-! ### Answers -/

/-- Whoever is struck was open until then, and has been aborted for a cause. -/
theorem Struck.aborted {shards : Nat} (h : (new shards Memory.empty).Struck actions early t)
    (hknown : ((new shards Memory.empty).run early).store.register.isKnown t = true) :
    ((new shards Memory.empty).run early).store.register.isOpen t = true ∧
      ((new shards Memory.empty).run actions).store.register.stateOf t = .aborted ∧
      (((new shards Memory.empty).run actions).store.register.find t).cause.isSome = true := by
  obtain ⟨before, b, after, rfl, ⟨middle, rfl⟩, -, hopen, haborted⟩ := h
  have hstill := (course_run shards early middle).known t hknown
  have hstrike := (course_run shards (early ++ middle) [b]).find t hstill
  have hcause := hstrike.told (fun hc => by simp [Register.isOpen_of_aborted hc] at hopen) haborted
  obtain ⟨cause, hcause⟩ := Option.isSome_iff_exists.mp hcause
  have hlater := (course_run shards (early ++ middle ++ [b]) after).find t
    ((course_run shards (early ++ middle) [b]).known t hstill)
  rw [show early ++ middle ++ b :: after = early ++ middle ++ [b] ++ after by simp]
  refine ⟨?_, hlater.aborted haborted, by rw [hlater.cause cause hcause]; rfl⟩
  rw [run_append] at hopen
  exact (after_run middle _).opens t hknown hopen

theorem Tracked.failing_of_answered (h : w.Tracked actions)
    (hlog : ((w.run actions).perform a).log =
      (w.run actions).log ++ [.answered t op (.error e)]) :
    (w.run actions).calls.get? t = some (.operation op (.failing e)) ∧
      ((w.run actions).perform a).store = (w.run actions).store.noteFailure t e := by
  have hmove := move_perform (w.run actions) a
  generalize (w.run actions).perform a = w' at hmove hlog
  have hsame : (w.run actions).log ≠ (w.run actions).log ++ [.answered t op (.error e)] := by simp
  cases hmove with
  | own hown =>
      cases hown with
      | @operation op' stage stage' store hcall hstep =>
          have hevent := List.append_cancel_left hlog
          unfold Event.ofStep at hevent
          split at hevent
          · cases hevent
          · cases hevent
            cases hstep with
            | reportsObject _ hstage => cases hstage
            | reportsName _ hstage => cases hstage
            | acts hact =>
                obtain ⟨early, -, hreaches⟩ := h.operations _ _ _ hcall
                cases hreaches with
                | goesOn _ hdiscreet =>
                    have hanswer := Store.discreet_act (s := (w.run actions).store) (t := t) hdiscreet
                    rw [hact] at hanswer
                    exact absurd rfl (hanswer e)
            | fails => exact ⟨hcall, rfl⟩
          · cases hevent
      | participation hcall =>
          have hevent := List.append_cancel_left hlog
          unfold Event.ofParticipantStep at hevent
          split at hevent <;> cases hevent
      | _ => exact absurd hlog hsame
  | _ => exact absurd hlog hsame

theorem Tracked.true_of_participated (h : w.Tracked actions) {call : ParticipantCall}
    (hlog : ((w.run actions).perform a).log =
      (w.run actions).log ++ [.participated t call (.error e)]) :
    e.IsTrueOf t (((w.run actions).perform a).store.register.find t) := by
  have hmove := move_perform (w.run actions) a
  generalize (w.run actions).perform a = w' at hmove hlog
  have hsame : (w.run actions).log ≠ (w.run actions).log ++ [.participated t call (.error e)] := by
    simp
  cases hmove with
  | own hown =>
      cases hown with
      | operation hcall =>
          have hevent := List.append_cancel_left hlog
          unfold Event.ofStep at hevent
          split at hevent <;> cases hevent
      | @participation call' stage stage' store hcall hstep htaken =>
          have hevent := List.append_cancel_left hlog
          unfold Event.ofParticipantStep at hevent
          split at hevent
          · cases hevent
          · cases hevent
            exact (ParticipantStage.truthful_step h.regular (h.participations _ _ _ hcall) htaken).2
              e rfl
          · cases hevent
      | _ => exact absurd hlog hsame
  | _ => exact absurd hlog hsame

section Failures

variable {shards : Nat} {cause : AbortCause} {cause? : Option AbortCause} {called : List StoreAction}

/-- While an operation is about to fail nothing happens to its transaction, but that it is struck. -/
theorem Failing.find_or_struck (h : (new shards Memory.empty).Failing actions early t op e) :
    ((new shards Memory.empty).run early).store.register.isKnown t = true ∧
      (((new shards Memory.empty).run actions).store.register.find t =
          ((new shards Memory.empty).run early).store.register.find t ∨
        (new shards Memory.empty).Struck actions early t) := by
  have hknown := (tracked_run shards early).known t _ (h.call early List.prefix_rfl h.since)
  exact ⟨hknown, h.underWay.find_or_struck hknown⟩

theorem Failing.aborted
    (h : (new shards Memory.empty).Failing actions early t op (.aborted u cause))
    (htrue : StoreError.IsTrueOf t
      ((((new shards Memory.empty).run early).store.register.find t).noted (.aborted u cause))
      (.aborted u cause)) :
    u = t ∧
      ((((new shards Memory.empty).run actions).store.register.find t).noted (.aborted u cause)).state =
        .aborted ∧
      (¬ (new shards Memory.empty).Struck actions early t →
        ((((new shards Memory.empty).run actions).store.register.find t).noted
          (.aborted u cause)).cause = some cause) := by
  obtain ⟨hknown, hfind⟩ := h.find_or_struck
  by_cases hstruck : (new shards Memory.empty).Struck actions early t
  · obtain ⟨-, haborted, -⟩ := hstruck.aborted hknown
    rw [Txn.noted_of_not_isOpen (Register.isOpen_of_aborted haborted)]
    exact ⟨htrue.1, haborted, fun hnot => absurd hstruck hnot⟩
  · rw [hfind.resolve_right hstruck]
    exact ⟨htrue.1, htrue.2.1, fun _ => htrue.2.2⟩

theorem Failing.notActive
    (h : (new shards Memory.empty).Failing actions early t op (.notActive u cause?))
    (htrue : StoreError.IsTrueOf t (((new shards Memory.empty).run early).store.register.find t)
      (.notActive u cause?)) :
    u = t ∧ ((new shards Memory.empty).run actions).store.register.stateOf t ≠ .active ∧
      ((((new shards Memory.empty).run actions).store.register.find t).cause = cause? ↔
        ¬ (new shards Memory.empty).Struck actions early t) := by
  obtain ⟨hknown, hfind⟩ := h.find_or_struck
  obtain ⟨hu, hstate, hcause⟩ := htrue
  by_cases hstruck : (new shards Memory.empty).Struck actions early t
  · obtain ⟨hopen, haborted, hsome⟩ := hstruck.aborted hknown
    have hnone : cause? = none :=
      hcause ▸ (((tracked_run shards early).regular.txn t).of_isOpen hopen).1
    refine ⟨hu, by simp [haborted], iff_of_false (fun hsame => ?_) (not_not.mpr hstruck)⟩
    rw [hsame, hnone] at hsome
    cases hsome
  · rw [Register.stateOf, hfind.resolve_right hstruck]
    exact ⟨hu, hstate, iff_of_true hcause hstruck⟩

/-- An operation that was called on an active transaction finds it active still, unless it has been
struck. -/
theorem Called.active_iff (h : (new shards Memory.empty).Called actions called t op)
    (hentered : (new shards Memory.empty).Entered called t op)
    (hactive : ((new shards Memory.empty).run called).store.register.stateOf t = .active) :
    ((new shards Memory.empty).run actions).store.register.stateOf t = .active ↔
      ¬ (new shards Memory.empty).Struck actions called t := by
  have hbegun := (isFree_iff.mp h.free).1
  by_cases hstruck : (new shards Memory.empty).Struck actions called t
  · obtain ⟨-, haborted, -⟩ := hstruck.aborted hbegun
    exact iff_of_false (by simp [haborted]) (not_not.mpr hstruck)
  · refine iff_of_true ?_ hstruck
    have hfind := h.find_or_struck ((course_run shards called [.operate t op]).known t hbegun)
    rw [Register.stateOf, hfind.resolve_right ?_, hentered]
    · exact hactive
    · rintro ⟨before, b, after, hsplit, hearly, hstrike⟩
      exact hstruck ⟨before, b, after, hsplit, (List.prefix_append _ _).trans hearly, hstrike⟩

end Failures

/--
**Errors and statuses agree, unless somebody interferes.**  In every run let an action show the
failure of a call.

For an operation there is the moment at which it was called, and the moment at which it came to where
it was about to fail.  If the failure says that a transaction is aborted, then that is the transaction
of the call, it is aborted, and the cause is the one that is recorded unless somebody else has aborted
the transaction since it was about to fail.  If the failure says that the transaction is not active,
then it is not, and the cause is the one that is recorded, if there is one, exactly unless somebody
else has aborted it since.  In any other failure of an operation that was called on an active
transaction, the transaction is still active exactly unless somebody else has aborted it since the
call.

The failure of a participant call is true without any proviso.
-/
theorem errors_agree (shards : Nat) {actions : List StoreAction} {a : StoreAction}
    {w w' : LockingTraffic Memory} {t : TxnId} {e : StoreError}
    (hw : w = (new shards Memory.empty).run actions) (hw' : w' = w.perform a) :
    (∀ op, w'.log = w.log ++ [.answered t op (.error e)] →
      ∃ called failed, (new shards Memory.empty).Called actions called t op ∧
        (new shards Memory.empty).Failing actions failed t op e ∧
        (∀ u cause, e = .aborted u cause →
          u = t ∧ w'.store.register.stateOf t = .aborted ∧
            (¬ (new shards Memory.empty).Struck actions failed t →
              (w'.store.register.find t).cause = some cause)) ∧
        (∀ u cause, e = .notActive u cause →
          u = t ∧ w'.store.register.stateOf t ≠ .active ∧
            ((w'.store.register.find t).cause = cause ↔
              ¬ (new shards Memory.empty).Struck actions failed t)) ∧
        (e.txn? = none → ((new shards Memory.empty).run called).store.register.stateOf t = .active →
          (w'.store.register.stateOf t = .active ↔
            ¬ (new shards Memory.empty).Struck actions called t))) ∧
    ∀ call, w'.log = w.log ++ [.participated t call (.error e)] →
      e.IsTrueOf t (w'.store.register.find t) := by
  subst hw hw'
  have htracked := tracked_run shards actions
  refine ⟨fun op hlog => ?_, fun call hlog => htracked.true_of_participated hlog⟩
  obtain ⟨hcall, hstore⟩ := htracked.failing_of_answered hlog
  have hnoted : (((new shards Memory.empty).run actions).perform a).store.register.find t =
      (((new shards Memory.empty).run actions).store.register.find t).noted e := by
    rw [hstore]
    exact Register.find_noteFailure_self _ t e
  obtain ⟨called, hcalled, hreaches⟩ := htracked.operations t op _ hcall
  cases hreaches with
  | goesOn hgoes => exact absurd rfl (hgoes e)
  | @fails failed _ hfailing htrue hentered =>
      refine ⟨called, failed, hcalled, hfailing, ?_, ?_, fun htxn hactive => ?_⟩
      · rintro u cause rfl
        rw [Register.stateOf, hnoted]
        exact hfailing.aborted htrue
      · rintro u cause rfl
        rw [Register.stateOf, hnoted]
        exact hfailing.notActive htrue
      · rw [Register.stateOf, hnoted, Txn.noted_of_txn?_eq_none htxn]
        exact hcalled.active_iff (hentered htxn) hactive

/-- The younger of two transactions has run out of time waiting for a name.  Before it learns of that
the elder takes an object from it. -/
def woundBeforeNoting : List StoreAction :=
  [.begin ⟨1⟩ ⟨1, 0⟩ 100, .begin ⟨2⟩ ⟨2, 0⟩ 5,
    .operate ⟨1⟩ (.getBinding ⟨"n"⟩), .proceed ⟨1⟩, .proceed ⟨1⟩, .proceed ⟨1⟩, .proceed ⟨1⟩,
    .proceed ⟨1⟩, .operate ⟨2⟩ (.get ⟨7⟩ false), .proceed ⟨2⟩, .proceed ⟨2⟩, .proceed ⟨2⟩,
    .operate ⟨2⟩ (.setBinding ⟨"n"⟩ ⟨7⟩), .proceed ⟨2⟩, .tick 5, .proceed ⟨2⟩, .proceed ⟨2⟩,
    .operate ⟨1⟩ (.mark ⟨7⟩), .proceed ⟨1⟩]

/-- The conflict is what the younger one answers, and the wound is what is recorded: it has been
struck while it was about to fail. -/
theorem errors_agree_woundBeforeNoting :
    ∃ w w' : LockingTraffic Memory, w = (new 1 Memory.empty).run woundBeforeNoting ∧
      w' = w.perform (.proceed ⟨2⟩) ∧ (w'.store.register.find ⟨2⟩).cause = some (.wounded ⟨1⟩) ∧
      ∃ failed, (new 1 Memory.empty).Failing woundBeforeNoting failed ⟨2⟩ (.setBinding ⟨"n"⟩ ⟨7⟩)
          (.aborted ⟨2⟩ (.conflict Store.namesSource "\"n\"" (some ⟨1⟩))) ∧
        (new 1 Memory.empty).Struck woundBeforeNoting failed ⟨2⟩ := by
  have hrecorded : (((((new 1 Memory.empty).run woundBeforeNoting).perform (.proceed ⟨2⟩)).store
      ).register.find ⟨2⟩).cause = some (.wounded ⟨1⟩) := by
    rfl
  obtain ⟨called, failed, -, hfailing, haborted, -⟩ :=
    (@errors_agree 1 woundBeforeNoting (.proceed ⟨2⟩) _ _ ⟨2⟩
      (.aborted ⟨2⟩ (.conflict Store.namesSource "\"n\"" (some ⟨1⟩))) rfl rfl).1
      (.setBinding ⟨"n"⟩ ⟨7⟩) rfl
  refine ⟨_, _, rfl, rfl, hrecorded, failed, hfailing, ?_⟩
  by_contra hstruck
  have hcause := (haborted _ _ rfl).2.2 hstruck
  cases hrecorded.symm.trans hcause

/-- A transaction is prepared, calls an operation all the same, and is aborted by the program before
that has failed. -/
def cancelledAfterLook : List StoreAction :=
  [.begin ⟨1⟩ ⟨1, 0⟩ 100, .operate ⟨1⟩ .create, .proceed ⟨1⟩, .participate ⟨1⟩ .prepare,
    .proceed ⟨1⟩, .proceed ⟨1⟩, .operate ⟨1⟩ .create, .cancel ⟨1⟩ .evicted]

/-- A transaction reads an object, and is aborted by the program before it has been looked for. -/
def cancelledWhileReading : List StoreAction :=
  [.begin ⟨1⟩ ⟨1, 0⟩ 100, .operate ⟨1⟩ (.get ⟨7⟩ false), .proceed ⟨1⟩, .cancel ⟨1⟩ .evicted,
    .proceed ⟨1⟩]

/-- **Errors and statuses may disagree.**  A conflict is answered where a wound is recorded; a
transaction is said not to be active, without a cause, where one is recorded; and an operation that
was called on an active transaction does not find its object, and the transaction is not active. -/
theorem exists_errors_disagree :
    (∃ w w' : LockingTraffic Memory, w = (new 1 Memory.empty).run woundBeforeNoting ∧
      w' = w.perform (.proceed ⟨2⟩) ∧
      w'.log = w.log ++ [.answered ⟨2⟩ (.setBinding ⟨"n"⟩ ⟨7⟩)
        (.error (.aborted ⟨2⟩ (.conflict Store.namesSource "\"n\"" (some ⟨1⟩))))] ∧
      (w'.store.register.find ⟨2⟩).cause = some (.wounded ⟨1⟩)) ∧
    (∃ w w' : LockingTraffic Memory, w = (new 1 Memory.empty).run cancelledAfterLook ∧
      w' = w.perform (.proceed ⟨1⟩) ∧
      w'.log = w.log ++ [.answered ⟨1⟩ .create (.error (.notActive ⟨1⟩ none))] ∧
      (w'.store.register.find ⟨1⟩).cause = some .evicted) ∧
    ∃ w w' : LockingTraffic Memory, w = (new 1 Memory.empty).run cancelledWhileReading ∧
      w' = w.perform (.proceed ⟨1⟩) ∧
      ((new 1 Memory.empty).run [.begin ⟨1⟩ ⟨1, 0⟩ 100]).store.register.stateOf ⟨1⟩ = .active ∧
      w'.log = w.log ++ [.answered ⟨1⟩ (.get ⟨7⟩ false) (.error (.objectNotFound ⟨7⟩))] ∧
      (w'.store.register.find ⟨1⟩).state = .aborted :=
  ⟨⟨_, _, rfl, rfl, rfl, rfl⟩, ⟨_, _, rfl, rfl, rfl, rfl⟩, ⟨_, _, rfl, rfl, rfl, rfl, rfl⟩⟩

end Traffic

end ObjectStore
