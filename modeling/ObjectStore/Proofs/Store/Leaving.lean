/-
What is left of a transaction once the participant is done with it.

The participant call that finishes a transaction clears its writes away, then its entries for
objects, and then its entries for names.  `ParticipantStage.owes` counts what it has yet to clear
away.  When that call has ended nothing is left of the transaction, and nothing comes back: whatever
is asked of the transaction later is refused before it reports or writes anything, and nobody makes
an entry or a write for anybody else.
-/
import ObjectStore.Proofs.Store.Crowd
import ObjectStore.Proofs.Store.Live

namespace ObjectStore

section Table

variable {K : Type} [Hashable K] [DecidableEq K]

/-- No entry of the table, be it granted or queued, is one of the transaction. -/
def LockTable.Lacks (table : LockTable K TxnId) (t : TxnId) : Prop :=
  ∀ key, ∀ e ∈ table.requests key, e.owner ≠ t

namespace LockTable.Lacks

variable {table table' : LockTable K TxnId} {t u : TxnId}

theorem turn (h : table.Lacks t) (hu : u ≠ t) (hd : table.Distinct) {now deadline : Nat} {key : K}
    {mode : LockMode} {register register' : Register} {answer : LockTurn TxnId}
    (hturn : table.turn now deadline u key mode register = (answer, register', table')) :
    table'.Lacks t := by
  intro key' e he howner
  by_cases hkey : key = key'
  · subst hkey
    have hspec := LockTable.turn_spec Register.final_aborted hd hturn
    exact h key e (hspec.others e he fun hc => hu (hc.symm.trans howner)) howner
  · rw [LockTable.requests_turn_of_ne hturn hkey] at he
    exact h key' e he howner

theorem releaseAll (h : table.Lacks t) (u : TxnId) : (table.releaseAll u).Lacks t := by
  intro key e he
  rw [LockTable.requests_releaseAll] at he
  exact h key e (List.mem_of_mem_eraseP he)

theorem releaseAll_self (hd : table.Distinct) (t : TxnId) : (table.releaseAll t).Lacks t := by
  intro key e he
  rw [LockTable.requests_releaseAll] at he
  exact ((hd key).mem_eraseP.mp he).2

end LockTable.Lacks

end Table

/-- A look at a status that the participant is done with is in vain. -/
theorem Txn.checkActive_of_done {t : Txn} (h : t.done = true) (now : Nat) :
    ∃ e, (t.checkActive now).1 = .error e := by
  unfold checkActive
  split
  · exact ⟨_, rfl⟩
  · exact ⟨_, rfl⟩
  · exact ⟨_, rfl⟩
  · rw [if_pos h]
    exact ⟨_, rfl⟩

theorem Store.start_of_done {s : LockingStore Memory} {t : TxnId}
    (h : (s.register.find t).done = true) (op : Operation) : ∃ e, (s.start t op).1 = .failing e := by
  obtain ⟨e, herror⟩ := Txn.checkActive_of_done h s.now
  have hlook : (s.checkActive t).1 = .error e := herror
  unfold start
  split
  · exact ⟨_, rfl⟩
  · split
    · exact ⟨_, rfl⟩
    · rename_i hok
      rw [hok] at hlook
      cases hlook

/-- How much a participant call has yet to clear away of the transaction that it finishes. -/
def ParticipantStage.owes : ParticipantStage → Nat
  | backend .abort => 3
  | releaseObjects _ => 2
  | releaseNames _ => 1
  | _ => 0

theorem ParticipantStage.owes_le (stage : ParticipantStage) : stage.owes ≤ 3 := by
  unfold owes
  split <;> simp

theorem ParticipantStage.owes_eq_zero {stage : ParticipantStage} (h : stage.isClosing = false) :
    stage.owes = 0 := by
  unfold owes
  split
  · exact absurd h (by simp [isClosing])
  · exact absurd h (by simp [isClosing])
  · exact absurd h (by simp [isClosing])
  · rfl

namespace Store

/-- The call of the backend with which a participant aborts never fails. -/
theorem participantStep_abort {ρo ρn : Type} [Reporter ρo ObjectId] [Reporter ρn NameKey]
    (s : Store ρo ρn Memory) (t : TxnId) :
    s.participantStep t (.backend .abort) =
      (.releaseObjects (.ok .done), { s with backend := s.backend.discard t }) := by
  simp only [participantStep, callBackend, Store.call, Backend.perform, Memory.perform_abort]
  rfl

/-- Of the writes, the entries for objects and the entries for names of a transaction, in this
order, no more is left than the last `n`. -/
structure Cleared (s : LockingStore Memory) (t : TxnId) (n : Nat) : Prop where
  writes : n < 3 → s.backend.pending.get? t = none
  objects : n < 2 → s.objects.table.Lacks t
  names : n < 1 → s.names.table.Lacks t

theorem Cleared.mono {s s' : LockingStore Memory} {t : TxnId} {n : Nat} (h : s.Cleared t n)
    (hwrites : s.backend.pending.get? t = none → s'.backend.pending.get? t = none)
    (hobjects : s.objects.table.Lacks t → s'.objects.table.Lacks t)
    (hnames : s.names.table.Lacks t → s'.names.table.Lacks t) : s'.Cleared t n :=
  ⟨fun hn => hwrites (h.writes hn), fun hn => hobjects (h.objects hn),
    fun hn => hnames (h.names hn)⟩

/-- A participant call of `t` may stand at this stage. -/
structure Suits (s : LockingStore Memory) (t : TxnId) (stage : ParticipantStage) : Prop where
  closing : stage.isClosing = true → (s.register.find t).done = true
  committing : stage.isCommitting = true → (s.register.find t).done = false
  /-- The backend has carried the writes out. -/
  carried : ∀ reply, stage = .committed reply → s.backend.pending.get? t = none

/-- A step of a participant call of `t`, by what it leaves of the transaction. -/
structure Departs (s : LockingStore Memory) (t : TxnId) (stage stage' : ParticipantStage)
    (s' : LockingStore Memory) : Prop where
  suits : s'.Suits t stage'
  done : (s.register.find t).done = true →
    (s'.register.find t).done = true ∧ stage'.owes = stage.owes - 1
  cleared : (s'.register.find t).done = true → s'.Cleared t stage'.owes
  /-- An answer that says that the transaction is finished is right. -/
  answers : ∀ reply, stage' = .ended (.ok reply) → reply ≠ .readOnly false →
    (s'.register.find t).done = true

/-- A step after which the call has nothing to do any more but to answer. -/
theorem Departs.last {s s' : LockingStore Memory} {t : TxnId} {stage stage' : ParticipantStage}
    (hclosing : stage'.isClosing = false) (hcommitting : stage'.isCommitting = false)
    (hsame : (s'.register.find t).done = (s.register.find t).done) (howes : stage.owes ≤ 1)
    (hcleared : (s.register.find t).done = true → s'.Cleared t 0)
    (hanswers : ∀ reply, stage' = .ended (.ok reply) → (s.register.find t).done = true) :
    s.Departs t stage stage' s' where
  suits :=
    { closing := fun h => absurd h (by simp [hclosing])
      committing := fun h => absurd h (by simp [hcommitting])
      carried := by
        rintro reply rfl
        exact absurd hcommitting (by simp [ParticipantStage.isCommitting]) }
  done := fun hdone => ⟨hsame.trans hdone, by
    rw [ParticipantStage.owes_eq_zero hclosing, Nat.sub_eq_zero_of_le howes]⟩
  cleared := by
    intro hdone
    rw [ParticipantStage.owes_eq_zero hclosing]
    exact hcleared (hsame.symm.trans hdone)
  answers := fun reply hended _ => hsame.trans (hanswers reply hended)

namespace Suits

variable {s : LockingStore Memory} {t : TxnId}

/-- The look at the status lets nobody in who is done. -/
theorem enter (call : ParticipantCall)
    (hcleared : (s.register.find t).done = true → s.Cleared t 0) :
    s.Departs t (.enter call) (s.participantStep t (.enter call)).1
      (s.participantStep t (.enter call)).2 := by
  obtain ⟨register, henter, hregister⟩ := s.enter_eq t call
  simp only [participantStep, henter]
  cases hlook : (call.look s.now (s.register.find t)).1 with
  | error e =>
      have hsame : (register.find t).done = (s.register.find t).done := by
        rw [hregister.self]
        exact Txn.done_of_look (Or.inr ⟨e, hlook⟩)
      exact .last rfl rfl hsame (Nat.zero_le 1) (fun hdone => (hcleared hdone).mono id id id)
        (by simp)
  | ok _ =>
      have hnot := Txn.done_of_look_eq_ok hlook
      -- Of all looks only that of an abort makes the participant done.
      have hlooked : (register.find t).done = decide (call = .abort) := by
        rw [hregister.self]
        by_cases habort : call = .abort
        · rcases Txn.look_ok_cases hlook with ⟨hcall, -⟩ | ⟨hcall, -⟩ | ⟨-, -, -, hdone⟩
          · simp [habort] at hcall
          · simp [habort] at hcall
          · rw [hdone, decide_eq_true habort]
        · rw [Txn.done_of_look (Or.inl habort), hnot, decide_eq_false habort]
      exact
        { suits :=
            { closing := by
                intro hclosing
                rw [hlooked]
                cases call <;> simp_all [ParticipantStage.isClosing]
              committing := by
                intro hcommitting
                rw [hlooked]
                cases call <;> simp_all [ParticipantStage.isCommitting]
              carried := by simp }
          done := fun hdone => absurd hdone (by simp [hnot])
          cleared := by
            intro hdone
            obtain rfl : call = .abort := of_decide_eq_true (hlooked.symm.trans hdone)
            exact ⟨by simp [ParticipantStage.owes], by simp [ParticipantStage.owes],
              by simp [ParticipantStage.owes]⟩
          answers := by simp }

/-- The backend forgets the writes of a transaction that it aborts, -/
theorem aborts (h : s.Suits t (.backend .abort)) :
    s.Departs t (.backend .abort) (s.participantStep t (.backend .abort)).1
      (s.participantStep t (.backend .abort)).2 := by
  rw [participantStep_abort]
  exact
    { suits := ⟨fun _ => h.closing rfl, by simp [ParticipantStage.isCommitting], by simp⟩
      done := fun hdone => ⟨hdone, rfl⟩
      cleared := fun _ => ⟨fun _ => Memory.pending_discard_self _ _,
        by simp [ParticipantStage.owes], by simp [ParticipantStage.owes]⟩
      answers := by simp }

/-- and of one that it commits, which is not done yet. -/
theorem calls {call : ParticipantCall} (hcall : call ≠ .abort) (h : s.Suits t (.backend call)) :
    s.Departs t (.backend call) (s.participantStep t (.backend call)).1
      (s.participantStep t (.backend call)).2 := by
  have hnot : (s.register.find t).done = false := by
    refine h.committing ?_
    cases call <;> simp_all [ParticipantStage.isCommitting]
  obtain ⟨backend, hbackend⟩ := s.callBackend_backend t call
  have hcalled : s.callBackend t call = ((s.callBackend t call).1, { s with backend }) := by
    rw [← hbackend]
  have hends := called_of_callBackend hcalled
  simp only [participantStep, hbackend]
  generalize (s.callBackend t call).1 = stage' at hends
  have hdeparts : stage'.isClosing = false →
      (∀ reply, stage' = .committed reply → backend.pending.get? t = none) →
      (∀ reply, stage' = .ended (.ok reply) → reply = .readOnly false) →
      s.Departs t (.backend call) stage' { s with backend } := by
    intro hopen hcarried hanswers
    exact
      { suits := ⟨fun hclosing => absurd hclosing (by simp [hopen]), fun _ => hnot, hcarried⟩
        done := fun hdone => absurd hdone (by simp [hnot])
        cleared := fun hdone => absurd hdone (by simp [hnot])
        answers := fun reply hended hreply => absurd (hanswers reply hended) hreply }
  cases hends with
  | refused => exact hdeparts rfl (by simp) (by simp)
  | commits _ _ _ hgone => exact hdeparts rfl (fun _ _ => hgone) (by simp)
  | prepares => exact hdeparts rfl (by simp) (by simp)
  | loses => exact hdeparts rfl (by simp) (by simp)
  | aborts => exact absurd rfl hcall

/-- **Every step of a participant call clears away what it owes.** -/
theorem step {stage : ParticipantStage} (h : s.Suits t stage) (hobjects : s.objects.table.Distinct)
    (hnames : s.names.table.Distinct) (hleft : 0 < stage.stepsLeft)
    (hcleared : (s.register.find t).done = true → s.Cleared t stage.owes) :
    s.Departs t stage (s.participantStep t stage).1 (s.participantStep t stage).2 := by
  cases stage with
  | enter call => exact enter call hcleared
  | backend call =>
      by_cases hcall : call = .abort
      · subst hcall
        exact h.aborts
      · exact h.calls hcall
  | committed reply =>
      -- This step makes the participant done; the writes are gone by now.
      have hnot : (s.register.find t).done = false := h.committing rfl
      have hdone : ((s.register.update t fun txn => ((), txn.completeCommit)).2.find t).done =
          true := by
        rw [Register.find_update_self]
        rfl
      exact
        { suits := ⟨fun _ => hdone, by simp [participantStep, ParticipantStage.isCommitting],
            by simp [participantStep]⟩
          done := fun hwas => absurd hwas (by simp [hnot])
          cleared := fun _ => ⟨fun _ => h.carried reply rfl,
            by simp [participantStep, ParticipantStage.owes],
            by simp [participantStep, ParticipantStage.owes]⟩
          answers := by simp [participantStep] }
  | releaseObjects result =>
      have hdone := h.closing rfl
      exact
        { suits := ⟨fun _ => hdone, by simp [participantStep, ParticipantStage.isCommitting],
            by simp [participantStep]⟩
          done := fun _ => ⟨hdone, rfl⟩
          cleared := fun _ => ⟨fun _ => (hcleared hdone).writes (by simp [ParticipantStage.owes]),
            fun _ => LockTable.Lacks.releaseAll_self hobjects t,
            by simp [participantStep, ParticipantStage.owes]⟩
          answers := by simp [participantStep] }
  | releaseNames result =>
      have hdone := h.closing rfl
      have hrest := hcleared hdone
      have hgone : ({ s with names := s.names.finish t } : LockingStore Memory).Cleared t 0 :=
        ⟨fun _ => hrest.writes (by simp [ParticipantStage.owes]),
          fun _ => hrest.objects (by simp [ParticipantStage.owes]),
          fun _ => LockTable.Lacks.releaseAll_self hnames t⟩
      have howes : (ParticipantStage.releaseNames result).owes ≤ 1 := Nat.le_refl 1
      cases result with
      | error e => exact .last rfl rfl rfl howes (fun _ => hgone) (fun _ _ => hdone)
      | ok reply => exact .last rfl rfl rfl howes (fun _ => hgone) (fun _ _ => hdone)
  | failing e =>
      exact .last rfl rfl (Register.keepsDone_noteFailure s.register t e t) (Nat.zero_le 1)
        (fun hdone => (hcleared hdone).mono id id id) (by simp [participantStep])
  | ended result => exact absurd hleft (by simp [ParticipantStage.stepsLeft])

end Suits

end Store

/-! ### Under many transactions -/

theorem OperationStep.keepsDone {s s' : LockingStore Memory} {t : TxnId} {stage stage' : Stage}
    (h : OperationStep s t stage stage' s') : s.register.KeepsDone s'.register := by
  cases h with
  | reportsObject hturn => exact (Register.wounded_turn hturn).keepsDone
  | reportsName hturn => exact (Register.wounded_turn hturn).keepsDone
  | wakes => exact fun _ => rfl
  | acts => exact fun _ => rfl
  | fails => exact Register.keepsDone_noteFailure _ _ _

theorem Event.participated_not_mem_ofStep {t u : TxnId} {op : Operation} {stage stage' : Stage}
    {call : ParticipantCall} {result : Except StoreError Reply} :
    participated u call result ∉ ofStep t op stage stage' := by
  unfold ofStep
  split <;> simp

theorem Event.participated_mem_ofParticipantStep {t u : TxnId} {call call' : ParticipantCall}
    {stage stage' : ParticipantStage} {result : Except StoreError Reply}
    (h : participated u call' result ∈ ofParticipantStep t call stage stage') :
    u = t ∧ stage' = .ended result := by
  unfold ofParticipantStep at h
  split at h
  · exact absurd h (by simp)
  · obtain ⟨rfl, -, rfl⟩ : u = t ∧ call' = call ∧ result = _ := by simpa using h
    exact ⟨rfl, rfl⟩
  · exact absurd h (by simp)

/-- The transaction whose call begins with an action, or takes a step. -/
def StoreAction.actor? : StoreAction → Option TxnId
  | .operate t _ => some t
  | .participate t _ => some t
  | .proceed t => some t
  | _ => none

/-- Whether the action is a step of the transaction's own call. -/
def StoreAction.isStepOf (t : TxnId) : StoreAction → Bool
  | .proceed u => decide (u = t)
  | _ => false

namespace Traffic

variable {w w' : LockingTraffic Memory} {t u : TxnId}

/-- Whether the participant is done with a transaction. -/
def isDone (t : TxnId) (w : LockingTraffic Memory) : Bool := (w.store.register.find t).done

/-- How much of a transaction the call under way has yet to clear away. -/
def owed (t : TxnId) (w : LockingTraffic Memory) : Nat :=
  match w.calls.get? t with
  | some (.participation _ stage) => stage.owes
  | _ => 0

/-- Some participant call has been told that it has finished the transaction. -/
def Finished (w : LockingTraffic Memory) (t : TxnId) : Prop :=
  ∃ call reply, .participated t call (.ok reply) ∈ w.log ∧ reply ≠ .readOnly false

theorem owed_le (t : TxnId) (w : LockingTraffic Memory) : w.owed t ≤ 3 := by
  unfold owed
  split
  · exact ParticipantStage.owes_le _
  · exact Nat.zero_le 3

theorem owed_eq_zero (h : w.isParticipating t = false) : w.owed t = 0 := by
  unfold isParticipating at h
  unfold owed
  split
  · rename_i hcall
    rw [hcall] at h
    cases h
  · rfl

/-- An action has left alone what there is of a transaction. -/
structure Spares (w : LockingTraffic Memory) (t : TxnId) (w' : LockingTraffic Memory) : Prop where
  done : w'.isDone t = w.isDone t
  call : w'.calls.get? t = w.calls.get? t
  writes : w.store.backend.pending.get? t = none → w'.store.backend.pending.get? t = none
  objects : w.store.objects.table.Lacks t → w'.store.objects.table.Lacks t
  names : w.store.names.table.Lacks t → w'.store.names.table.Lacks t
  answers : ∀ call result, .participated t call result ∈ w'.log → .participated t call result ∈ w.log

namespace Spares

theorem status {register : Register}
    (hdone : (register.find t).done = (w.store.register.find t).done) :
    w.Spares t { w with store := { w.store with register } } :=
  ⟨hdone, rfl, id, id, id, fun _ _ => id⟩

theorem of_ownMove (hretains : Retains w) (h : w.OwnMove u w') (hu : u ≠ t) : w.Spares t w' := by
  have hbeside := h.beside hu
  have hwrites : w.store.backend.pending.get? t = none →
      w'.store.backend.pending.get? t = none := by
    intro hnone
    rcases hbeside.writes with ⟨hsame, -⟩ | ⟨-, hgone⟩
    · rw [hsame, hnone]
    · exact hgone
  cases h with
  | begins =>
      exact ⟨congrArg Txn.done (Register.find_start_of_ne hu _ _), rfl, id, id, id, fun _ _ => id⟩
  | starts _ _ hwounded =>
      exact ⟨hwounded.keepsDone t, hbeside.call, id, id, id, fun _ _ => id⟩
  | participates => exact ⟨rfl, hbeside.call, id, id, id, fun _ _ => id⟩
  | operation hcall hstep =>
      refine ⟨hstep.keepsDone t, hbeside.call, hwrites, ?_, ?_, fun call result hin => ?_⟩
      · cases hstep with
        | reportsObject hturn => exact fun h => h.turn hu hretains.objects.distinct hturn
        | _ => exact id
      · cases hstep with
        | reportsName hturn => exact fun h => h.turn hu hretains.names.distinct hturn
        | _ => exact id
      · exact (List.mem_append.mp hin).resolve_right Event.participated_not_mem_ofStep
  | participation hcall hstep =>
      refine ⟨?_, hbeside.call, hwrites, ?_, ?_, fun call result hin => ?_⟩
      · cases hstep with
        | refused hwounded => exact hwounded.keepsDone t
        | prepares _ _ _ hother => exact congrArg Txn.done (hother t hu)
        | entersAbort _ _ hother => exact congrArg Txn.done (hother t hu)
        | completes _ hother => exact congrArg Txn.done (hother t hu)
        | fails => exact Register.keepsDone_noteFailure _ _ _ t
        | _ => rfl
      · cases hstep with
        | releasesObjects => exact fun h => h.releaseAll u
        | _ => exact id
      · cases hstep with
        | releasesNames => exact fun h => h.releaseAll u
        | _ => exact id
      · refine (List.mem_append.mp hin).resolve_right fun hnew => hu ?_
        exact (Event.participated_mem_ofParticipantStep hnew).1.symm

/-- **Nothing but its own calls touches what there is of a transaction.** -/
theorem perform (hretains : Retains w) {a : StoreAction} (ha : a.actor? ≠ some t) :
    w.Spares t (w.perform a) := by
  have hrest : w.Spares t w := status rfl
  have hne : ∀ {v}, a.actor? = some v → v ≠ t := by
    rintro v hactor rfl
    exact ha hactor
  unfold Traffic.perform
  cases a with
  | begin v seniority lifetime =>
      simp only
      split
      · exact hrest
      · rename_i hnew
        exact status (Register.keepsDone_start (Bool.of_not_eq_true hnew) _ _ t)
  | operate v op =>
      simp only
      split
      · rename_i hfree
        obtain ⟨hknown, hnone⟩ := isFree_iff.mp hfree
        obtain ⟨stage, register, hstart, hwounded, hstage⟩ := start_cases w.store v op
        rw [hstart]
        exact of_ownMove hretains (.starts hnone hknown hwounded hstage hstart) (hne rfl)
      · exact hrest
  | participate v call =>
      simp only
      split
      · rename_i hfree
        obtain ⟨hknown, hnone⟩ := isFree_iff.mp hfree
        exact of_ownMove hretains (.participates hnone hknown) (hne rfl)
      · exact hrest
  | proceed v =>
      simp only
      split
      · exact hrest
      · rename_i op stage hcall
        split
        · rename_i hcan
          exact of_ownMove hretains (.operation hcall (operationStep_step w.store v hcan) rfl) (hne rfl)
        · exact hrest
      · rename_i call stage hcall
        split
        · rename_i hleft
          exact of_ownMove hretains (.participation hcall (participantMove_step w.store v hleft) rfl)
            (hne rfl)
        · exact hrest
  | cancel v cause =>
      simp only
      split
      · refine status (Register.keepsDone_update (f := (·.abort cause)) ?_ t)
        rcases (w.store.register.find v).abort_cases cause with ⟨hsame, -⟩ | ⟨-, haborted⟩
        · rw [hsame]
        · rw [haborted]
          rfl
      · exact hrest
  | wound v reason =>
      simp only
      split
      · exact status ((Register.wounded_wound w.store.register v reason).keepsDone t)
      · exact hrest
  | describe v subject text =>
      cases subject with
      | object oid => exact ⟨rfl, rfl, id, id, id, fun _ _ => id⟩
      | name name => exact ⟨rfl, rfl, id, id, id, fun _ _ => id⟩
  | tick n => exact ⟨rfl, rfl, id, id, id, fun _ _ => id⟩
  | shutdown =>
      unfold Store.shutdown
      simp only
      split
      · exact hrest
      · refine ⟨rfl, rfl, fun _ => ?_, id, id, fun _ _ => id⟩
        simp only [Store.call, Backend.perform, Memory.perform_shutdown]
        rfl

end Spares

/-! ### Leaving -/

/-- What is true of a transaction on its way out, at every moment of a run. -/
structure Leaving (w : LockingTraffic Memory) (t : TxnId) : Prop where
  /-- Whatever is asked of a transaction that the participant is done with is about to fail. -/
  operation : ∀ op stage, w.calls.get? t = some (.operation op stage) → w.isDone t = true →
    ∃ e, stage = .failing e
  participation : ∀ call stage, w.calls.get? t = some (.participation call stage) →
    w.store.Suits t stage
  cleared : w.isDone t = true → w.store.Cleared t (w.owed t)
  answered : ∀ call reply, .participated t call (.ok reply) ∈ w.log → reply ≠ .readOnly false →
    w.isDone t = true ∧ w.owed t = 0

/-- The action keeps the transaction on its way, and clears away `n` parts of what its call owes. -/
structure LeavesOn (w : LockingTraffic Memory) (t : TxnId) (n : Nat) (w' : LockingTraffic Memory) :
    Prop where
  leaving : w'.Leaving t
  done : w.isDone t = true → w'.isDone t = true ∧ w'.owed t = w.owed t - n

namespace Leaving

/-- Whoever has been told that a transaction is finished has been told the truth. -/
theorem of_finished (h : w.Leaving t) (hfinished : w.Finished t) :
    w.isDone t = true ∧ w.owed t = 0 := by
  obtain ⟨call, reply, hanswer, hreply⟩ := hfinished
  exact h.answered call reply hanswer hreply

theorem owed_of_call (h : w'.calls.get? t = w.calls.get? t) : w'.owed t = w.owed t := by
  unfold owed
  rw [h]

theorem spares (h : w.Leaving t) (hspares : w.Spares t w') : w.LeavesOn t 0 w' := by
  have howed := owed_of_call hspares.call
  refine ⟨⟨?_, ?_, ?_, ?_⟩, fun hdone => ⟨hspares.done.trans hdone, howed⟩⟩
  · intro op stage hcall hdone
    rw [hspares.call] at hcall
    exact h.operation op stage hcall (hspares.done.symm.trans hdone)
  · intro call stage hcall
    rw [hspares.call] at hcall
    have hsuits := h.participation call stage hcall
    exact ⟨fun hclosing => hspares.done.trans (hsuits.closing hclosing),
      fun hcommitting => hspares.done.trans (hsuits.committing hcommitting),
      fun reply hstage => hspares.writes (hsuits.carried reply hstage)⟩
  · intro hdone
    rw [howed]
    exact (h.cleared (hspares.done.symm.trans hdone)).mono hspares.writes hspares.objects
      hspares.names
  · intro call reply hin hreply
    rw [hspares.done, howed]
    exact h.answered call reply (hspares.answers call _ hin) hreply

theorem stays (h : w.Leaving t) (n : Nat) (howed : w.owed t = 0) : w.LeavesOn t n w :=
  ⟨h, fun hdone => ⟨hdone, by rw [howed, Nat.zero_sub]⟩⟩

theorem begins (h : w.Leaving t) (hfree : w.calls.get? t = none) (register : Register)
    (hsame : (register.find t).done = (w.store.register.find t).done) {c : Call}
    (hoperation : ∀ op stage, c = .operation op stage → w.isDone t = true →
      ∃ e, stage = .failing e)
    (hparticipation : ∀ call stage, c = .participation call stage → stage = .enter call) :
    w.LeavesOn t 0
      { w with store := { w.store with register }, calls := w.calls.insert t c } := by
  have hbefore : w.owed t = 0 := by
    unfold owed
    rw [hfree]
  have hafter : owed t { w with store := { w.store with register }, calls := w.calls.insert t c } =
      0 := by
    simp only [owed, FinMap.get?_insert_self]
    cases c with
    | operation => rfl
    | participation call stage =>
        rw [hparticipation call stage rfl]
        rfl
  refine ⟨⟨?_, ?_, ?_, ?_⟩, fun hdone => ⟨hsame.trans hdone, hafter.trans hbefore.symm⟩⟩
  · intro op stage hcall hdone
    rw [FinMap.get?_insert_self] at hcall
    exact hoperation op stage (Option.some.inj hcall) (hsame.symm.trans hdone)
  · intro call stage hcall
    rw [FinMap.get?_insert_self] at hcall
    rw [hparticipation call stage (Option.some.inj hcall)]
    exact ⟨by simp [ParticipantStage.isClosing], by simp [ParticipantStage.isCommitting], by simp⟩
  · intro hdone
    rw [hafter, ← hbefore]
    exact (h.cleared (hsame.symm.trans hdone)).mono id id id
  · intro call reply hin hreply
    exact ⟨hsame.trans (h.answered call reply hin hreply).1, hafter⟩

/-- An operation is refused if the participant is done with its transaction. -/
theorem operate (h : w.Leaving t) (op : Operation) :
    w.LeavesOn t 0 (w.perform (.operate t op)) := by
  simp only [Traffic.perform]
  split
  · rename_i hfree
    obtain ⟨-, hnone⟩ := isFree_iff.mp hfree
    obtain ⟨stage, register, hstart, hwounded, -⟩ := start_cases w.store t op
    rw [hstart]
    refine h.begins hnone register (hwounded.keepsDone t) (fun op' stage' hcall hdone => ?_) (by simp)
    cases hcall
    obtain ⟨e, hfailing⟩ := Store.start_of_done hdone op
    exact ⟨e, (congrArg Prod.fst hstart).symm.trans hfailing⟩
  · exact h.spares (.status rfl)

theorem participate (h : w.Leaving t) (call : ParticipantCall) :
    w.LeavesOn t 0 (w.perform (.participate t call)) := by
  simp only [Traffic.perform]
  split
  · rename_i hfree
    obtain ⟨-, hnone⟩ := isFree_iff.mp hfree
    refine h.begins hnone w.store.register rfl (by simp) (fun call' stage hcall => ?_)
    cases hcall
    rfl
  · exact h.spares (.status rfl)

/-- An operation whose transaction the participant is done with fails, and leaves nothing. -/
theorem proceedOperation (h : w.Leaving t) {op : Operation} {stage stage' : Stage}
    {store : LockingStore Memory} (hcall : w.calls.get? t = some (.operation op stage))
    (hstep : OperationStep w.store t stage stage' store) :
    w.LeavesOn t 1
      { store
        calls := w.calls.change t (Call.ofStage op stage')
        log := w.log ++ Event.ofStep t op stage stage' } := by
  have hsame : (store.register.find t).done = w.isDone t := hstep.keepsDone t
  have hbefore : w.owed t = 0 := by simp [owed, hcall]
  have hafter : owed t
      { store
        calls := w.calls.change t (Call.ofStage op stage')
        log := w.log ++ Event.ofStep t op stage stage' } = 0 := by
    simp only [owed, FinMap.get?_change_self]
    cases stage' <;> rfl
  have hfails : w.isDone t = true →
      ∃ e, stage' = .ended (.error e) ∧ store = w.store.noteFailure t e := by
    intro hdone
    obtain ⟨e, rfl⟩ := h.operation op stage hcall hdone
    cases hstep with
    | fails => exact ⟨e, rfl, rfl⟩
  refine ⟨⟨?_, ?_, ?_, ?_⟩, fun hdone => ⟨hsame.trans hdone, by rw [hafter, hbefore]⟩⟩
  · intro op' stage'' hcall' hdone
    rw [FinMap.get?_change_self] at hcall'
    obtain ⟨e, rfl, -⟩ := hfails (hsame.symm.trans hdone)
    cases hcall'
  · intro call stage'' hcall'
    rw [FinMap.get?_change_self] at hcall'
    cases stage' <;> cases hcall'
  · intro hdone
    have hwas := hsame.symm.trans hdone
    obtain ⟨e, -, rfl⟩ := hfails hwas
    rw [hafter, ← hbefore]
    exact (h.cleared hwas).mono id id id
  · intro call reply hin hreply
    have hold := (List.mem_append.mp hin).resolve_right Event.participated_not_mem_ofStep
    exact ⟨hsame.trans (h.answered call reply hold hreply).1, hafter⟩

theorem proceedParticipation (h : w.Leaving t) (hretains : Retains w) {call : ParticipantCall}
    {stage : ParticipantStage} (hcall : w.calls.get? t = some (.participation call stage))
    (hleft : 0 < stage.stepsLeft) : w.LeavesOn t 1 (w.proceedParticipation t call stage) := by
  have hbefore : w.owed t = stage.owes := by simp only [owed, hcall]
  have hdeparts := (h.participation call stage hcall).step hretains.objects.distinct
    hretains.names.distinct hleft (fun hdone => hbefore ▸ h.cleared hdone)
  simp only [Traffic.proceedParticipation]
  generalize w.store.participantStep t stage = stepped at hdeparts
  obtain ⟨stage', store⟩ := stepped
  have hafter : owed t
      { store
        calls := w.calls.change t (Call.ofParticipantStage call stage')
        log := w.log ++ Event.ofParticipantStep t call stage stage' } = stage'.owes := by
    simp only [owed, FinMap.get?_change_self]
    cases stage' <;> rfl
  refine ⟨⟨?_, ?_, ?_, ?_⟩, fun hdone => ?_⟩
  · intro op stage'' hcall'
    rw [FinMap.get?_change_self] at hcall'
    exact absurd hcall' (Call.ofParticipantStage_ne_operation call stage' op stage'')
  · intro call' stage'' hcall'
    rw [FinMap.get?_change_self] at hcall'
    obtain rfl : stage' = stage'' := by
      cases stage' <;> cases hcall' <;> rfl
    exact hdeparts.suits
  · intro hdone
    rw [hafter]
    exact hdeparts.cleared hdone
  · intro call' reply hin hreply
    rw [hafter]
    rcases List.mem_append.mp hin with hold | hnew
    · obtain ⟨hdone, hnothing⟩ := h.answered call' reply hold hreply
      obtain ⟨hstill, howes⟩ := hdeparts.done hdone
      exact ⟨hstill, by rw [howes, ← hbefore, hnothing]⟩
    · obtain ⟨-, rfl⟩ := Event.participated_mem_ofParticipantStep hnew
      exact ⟨hdeparts.answers reply rfl hreply, rfl⟩
  · rw [hafter, hbefore]
    exact hdeparts.done hdone

theorem proceed (h : w.Leaving t) (hretains : Retains w) :
    w.LeavesOn t 1 (w.perform (.proceed t)) := by
  simp only [Traffic.perform]
  split
  · rename_i hnone
    exact h.stays 1 (by simp [owed, hnone])
  · rename_i op stage hcall
    split
    · rename_i hcan
      exact h.proceedOperation hcall (operationStep_step w.store t hcan)
    · exact h.stays 1 (by simp [owed, hcall])
  · rename_i call stage hcall
    split
    · rename_i hleft
      exact h.proceedParticipation hretains hcall hleft
    · rename_i hended
      refine h.stays 1 ?_
      cases stage <;> simp_all [owed, ParticipantStage.stepsLeft, ParticipantStage.owes]

/-- **Every action keeps a transaction on its way out.**  What is owed is cleared away by the steps
of its own call, and by each of them. -/
theorem perform (h : w.Leaving t) (hretains : Retains w) (a : StoreAction) :
    w.LeavesOn t (if a.isStepOf t then 1 else 0) (w.perform a) := by
  by_cases hactor : a.actor? = some t
  · cases a with
    | operate u op =>
        cases hactor
        exact h.operate op
    | participate u call =>
        cases hactor
        exact h.participate call
    | proceed u =>
        cases hactor
        simpa [StoreAction.isStepOf] using h.proceed hretains
    | _ => cases hactor
  · have hquiet : a.isStepOf t = false := by
      cases a with
      | proceed u =>
          refine decide_eq_false fun hu => hactor ?_
          rw [hu]
          rfl
      | _ => rfl
    rw [hquiet]
    exact h.spares (Spares.perform hretains hactor)

theorem run (h : w.Leaving t) (hretains : Retains w) (actions : List StoreAction) :
    w.LeavesOn t (actions.countP (·.isStepOf t)) (w.run actions) := by
  -- By induction on the run: the steps of the call add up.
  induction actions generalizing w with
  | nil => exact ⟨h, fun hdone => ⟨hdone, rfl⟩⟩
  | cons a rest ih =>
      have hfirst := h.perform hretains a
      have hrest := ih hfirst.leaving (hretains.move (move_perform w a))
      refine ⟨hrest.leaving, fun hdone => ?_⟩
      obtain ⟨hdone₁, howed₁⟩ := hfirst.done hdone
      obtain ⟨hdone₂, howed₂⟩ := hrest.done hdone₁
      refine ⟨hdone₂, ?_⟩
      rw [run_cons, howed₂, howed₁, List.countP_cons, Nat.sub_sub, Nat.add_comm]

theorem new (shards : Nat) (t : TxnId) : (new shards Memory.empty).Leaving t where
  operation := fun _ _ hcall => by cases hcall
  participation := fun _ _ hcall => by cases hcall
  cleared := fun hdone => by cases hdone
  answered := fun _ _ hin => by cases hin

end Leaving

/--
**Nothing outlives its transaction.**  When the participant is done with a transaction, or some call
has been told that it has finished it, the participant is done with it from then on, whatever happens
and whatever is asked of the transaction.  The call that finishes it has three things to clear away
at most, and with each of its steps it clears one away; when it has been answered, or no participant
call is under way, nothing is left to be cleared away.  As long as that is so no entry in either
table is the transaction's, be it granted or queued, and it has no writes.
-/
theorem nothing_outlives (shards : Nat) (actions later : List StoreAction)
    {w w' : LockingTraffic Memory} (hw : w = (new shards Memory.empty).run actions)
    (hw' : w' = w.run later) (hdone : w.isDone t = true ∨ w.Finished t) :
    w'.isDone t = true ∧ w.owed t ≤ 3 ∧
    w'.owed t = w.owed t - later.countP (·.isStepOf t) ∧
    (w'.isParticipating t = false ∨ w'.Finished t → w'.owed t = 0) ∧
    (w'.owed t = 0 →
      w'.store.objects.table.Lacks t ∧ w'.store.names.table.Lacks t ∧
        w'.store.backend.pending.get? t = none) := by
  subst hw hw'
  have hleaving := ((Leaving.new shards t).run (.new shards Memory.empty) actions).leaving
  have hruns := hleaving.run (.run shards Memory.empty actions) later
  obtain ⟨hstill, howed⟩ := hruns.done (hdone.elim id fun h => (hleaving.of_finished h).1)
  refine ⟨hstill, owed_le t _, howed, ?_, fun hnothing => ?_⟩
  · rintro (hquiet | hfinished)
    · exact owed_eq_zero hquiet
    · exact (hruns.leaving.of_finished hfinished).2
  · have hcleared := hruns.leaving.cleared hstill
    rw [hnothing] at hcleared
    exact ⟨hcleared.objects (by simp), hcleared.names (by simp), hcleared.writes (by simp)⟩

/-- Binds a name and commits.  The participant is done, and the locks are yet to be released. -/
def bindsAndCommits : List StoreAction :=
  [.begin ⟨1⟩ ⟨1, 0⟩ 9, .operate ⟨1⟩ (.setBinding ⟨"n"⟩ ⟨7⟩), .proceed ⟨1⟩, .proceed ⟨1⟩, .proceed ⟨1⟩,
    .proceed ⟨1⟩, .participate ⟨1⟩ .prepareAndCommit, .proceed ⟨1⟩, .proceed ⟨1⟩, .proceed ⟨1⟩]

/-- They are released; then an operation and an abort are asked of the transaction. -/
def askedAgain : List StoreAction :=
  [.proceed ⟨1⟩, .proceed ⟨1⟩, .operate ⟨1⟩ (.getBinding ⟨"n"⟩), .proceed ⟨1⟩,
    .participate ⟨1⟩ .abort, .proceed ⟨1⟩, .proceed ⟨1⟩]

/-- The transaction still holds the name when the participant is done, and nothing in the end. -/
theorem nothing_outlives_bindsAndCommits :
    (⟨1⟩, .write) ∈
        ((new 1 Memory.empty).run bindsAndCommits).store.names.table.holders (.ofName ⟨"n"⟩) ∧
      (((new 1 Memory.empty).run bindsAndCommits).run askedAgain).store.objects.table.Lacks ⟨1⟩ ∧
      (((new 1 Memory.empty).run bindsAndCommits).run askedAgain).store.names.table.Lacks ⟨1⟩ ∧
      (((new 1 Memory.empty).run bindsAndCommits).run askedAgain).store.backend.pending.get? ⟨1⟩ =
        none := by
  obtain ⟨-, -, howed, -, hleft⟩ :=
    nothing_outlives 1 bindsAndCommits askedAgain rfl rfl (t := ⟨1⟩) (Or.inl (by decide))
  have htwo : ((new 1 Memory.empty).run bindsAndCommits).owed ⟨1⟩ = 2 := rfl
  rw [htwo] at howed
  exact ⟨by decide, hleft (howed.trans (by decide))⟩

end Traffic

end ObjectStore
