/-
Tasks on a store that others use too.

The others act between the steps of a task, and between those of a commit or an abort at the store.
What they are going to do is given as one batch of actions for each step, so that every schedule is
one list of batches.  The coordinator is shared as well: others may draw numbers from it while a task
is run.

When nobody else acts a task fares as it does on the bare store (`Run.step_undisturbed`).
-/
import ObjectStore.Coordination.Run
import ObjectStore.Proofs.Store.Aside
import ObjectStore.Service.StoreService

namespace ObjectStore

theorem ParticipantStage.eq_ended {stage : ParticipantStage} (h : stage.stepsLeft = 0) :
    stage = .ended stage.result := by
  cases stage with
  | ended result => rfl
  | _ => exact absurd h (by simp [stepsLeft])

/-- A store in traffic, and what its other users are going to do before each step of a task. -/
structure Contended (ρo ρn : Type) where
  traffic : Traffic ρo ρn Memory
  coming : List (List StoreAction)

namespace Contended

variable {ρo ρn : Type} [Reporter ρo ObjectId] [Reporter ρn NameKey]

/-- The others act. -/
def giveWay (s : Contended ρo ρn) : Contended ρo ρn :=
  ⟨s.traffic.run (s.coming.headD []), s.coming.tail⟩

/-- The others act, and then a function is applied to the store. -/
def onStore {α : Type} (f : Store ρo ρn Memory → α × Store ρo ρn Memory) (s : Contended ρo ρn) :
    α × Contended ρo ρn :=
  let s := s.giveWay
  let (a, store) := f s.traffic.store
  (a, { s with traffic := { s.traffic with store } })

/-- The others act, and then a participant call takes a step if it has one left. -/
def participantStep (t : TxnId) (call : ParticipantCall) (stage : ParticipantStage)
    (s : Contended ρo ρn) : ParticipantStage × Contended ρo ρn :=
  if 0 < stage.stepsLeft then
    let s := s.giveWay
    ((s.traffic.store.participantStep t stage).1,
      { s with traffic := s.traffic.proceedParticipation t call stage })
  else (stage, s)

/-- A number of steps of a participant call, with others in between. -/
def participantSteps (t : TxnId) (call : ParticipantCall) : Nat → ParticipantStage →
    Contended ρo ρn → ParticipantStage × Contended ρo ρn
  | 0, stage, s => (stage, s)
  | n + 1, stage, s =>
    let (stage, s) := s.participantStep t call stage
    participantSteps t call n stage s

/-- A participant call from beginning to end. -/
def participate (t : TxnId) (call : ParticipantCall) (s : Contended ρo ρn) :
    Except StoreError Reply × Contended ρo ρn :=
  let stage := ParticipantStage.enter call
  let (stage, s) := s.participantSteps t call stage.stepsLeft stage
  (stage.result, s)

instance : TaskHost (Contended ρo ρn) where
  begin t seniority lifetime s :=
    (s.onStore fun store => ((), (store.begin t seniority lifetime).tick 1)).2
  find t s := s.traffic.store.register.find t
  describe t subject text s := (s.onStore fun store => ((), store.describe t subject text)).2
  cancel t cause := onStore (·.updateTxn t (·.abort cause))
  check t := onStore (·.checkActive t)
  start t op := onStore (·.start t op)
  step t stage := onStore (·.step t stage)
  canStep t stage s := s.traffic.store.canStep t stage
  participate := participate

end Contended

/-- Others have drawn numbers. -/
def Coordinator.skip {κ : Type} (n : Nat) (c : Coordinator κ) : Coordinator κ :=
  { c with nextTxn := ⟨c.nextTxn.val + n⟩ }

/-- Takes steps of a run; before each of them others draw some numbers from the coordinator. -/
def Run.among {V κ σ : Type} [TaskHost σ] : List Nat → Run V → Coordinator κ → σ →
    Run V × Coordinator κ × σ
  | [], r, c, s => (r, c, s)
  | n :: rest, r, c, s =>
    let (r, c, s) := r.step (c.skip n) s
    among rest r c s

/-! ### With nobody else -/

namespace Contended

variable {ρo ρn : Type} [Reporter ρo ObjectId] [Reporter ρn NameKey]

/-- Nobody else acts, and the other store is a bare one in the same state. -/
def Undisturbed (s : Contended ρo ρn) (bare : StoreService ρo ρn Memory) : Prop :=
  s.coming = [] ∧ bare = .bare s.traffic.store

theorem giveWay_of_nil {s : Contended ρo ρn} (h : s.coming = []) : s.giveWay = s := by
  obtain ⟨traffic, coming⟩ := s
  obtain rfl : coming = [] := h
  rfl

theorem Undisturbed.onStore {s : Contended ρo ρn} {bare : StoreService ρo ρn Memory}
    (h : s.Undisturbed bare) {α : Type} (f : Store ρo ρn Memory → α × Store ρo ρn Memory) :
    (s.onStore f).1 = (bare.onStore f).1 ∧ (s.onStore f).2.Undisturbed (bare.onStore f).2 := by
  obtain ⟨hnil, rfl⟩ := h
  simp only [Contended.onStore, giveWay_of_nil hnil]
  exact ⟨rfl, hnil, rfl⟩

theorem participantSteps_of_nil (t : TxnId) (call : ParticipantCall) (n : Nat)
    (stage : ParticipantStage) {s : Contended ρo ρn} (h : s.coming = []) :
    (s.participantSteps t call n stage).1 = (s.traffic.store.participantSteps t n stage).1 ∧
      (s.participantSteps t call n stage).2.coming = [] ∧
      (s.participantSteps t call n stage).2.traffic.store =
        (s.traffic.store.participantSteps t n stage).2 := by
  induction n generalizing stage s with
  | zero => exact ⟨rfl, h, rfl⟩
  | succ n ih =>
      have hstep : (s.participantStep t call stage).1 = (s.traffic.store.participantStep t stage).1 ∧
          (s.participantStep t call stage).2.coming = [] ∧
          (s.participantStep t call stage).2.traffic.store =
            (s.traffic.store.participantStep t stage).2 := by
        unfold participantStep
        split
        · rw [giveWay_of_nil h]
          exact ⟨rfl, h, rfl⟩
        · rename_i hended
          rw [ParticipantStage.eq_ended (Nat.eq_zero_of_not_pos hended)]
          exact ⟨rfl, h, rfl⟩
      obtain ⟨hstage, hcoming, hstore⟩ := hstep
      have hrest := ih (s.participantStep t call stage).1 hcoming
      simp only [participantSteps, Store.participantSteps]
      rw [← hstage, ← hstore]
      exact hrest

theorem Undisturbed.participate {s : Contended ρo ρn} {bare : StoreService ρo ρn Memory}
    (h : s.Undisturbed bare) (t : TxnId) (call : ParticipantCall) :
    (s.participate t call).1 = (TaskHost.participate t call bare).1 ∧
      (s.participate t call).2.Undisturbed (TaskHost.participate t call bare).2 := by
  obtain ⟨hnil, rfl⟩ := h
  obtain ⟨hstage, hcoming, hstore⟩ := participantSteps_of_nil t call
    (ParticipantStage.enter call).stepsLeft (.enter call) hnil
  refine ⟨congrArg ParticipantStage.result hstage, hcoming, ?_⟩
  exact congrArg StoreService.bare hstore.symm

/-- On a bare store no counted call ends with an operation. -/
theorem Undisturbed.step {s : Contended ρo ρn} {bare : StoreService ρo ρn Memory}
    (h : s.Undisturbed bare) (t : TxnId) (stage : Stage) :
    (TaskHost.step t stage s).1 = (TaskHost.step t stage bare).1 ∧
      (TaskHost.step t stage s).2.Undisturbed (TaskHost.step t stage bare).2 := by
  have hbare : TaskHost.step t stage bare = bare.onStore (·.step t stage) := by
    obtain ⟨-, rfl⟩ := h
    simp only [TaskHost.step, StoreService.step]
    split
    · rfl
    · split
      · rename_i result service heq
        obtain ⟨store, lifecycle⟩ := service
        obtain rfl : lifecycle = none := (congrArg (·.2.lifecycle) heq).symm
        rw [heq]
        rfl
      · rename_i _ heq
        exact heq.symm
  rw [hbare]
  exact h.onStore (·.step t stage)

theorem Undisturbed.act {V : Type} {s : Contended ρo ρn} {bare : StoreService ρo ρn Memory}
    (h : s.Undisturbed bare) (action : TaskAction) (r : Run V) :
    (r.act action s).1 = (r.act action bare).1 ∧
      (r.act action s).2.Undisturbed (r.act action bare).2 := by
  cases action with
  | operate op =>
      obtain ⟨hstage, hstill⟩ := h.onStore (·.start r.txn op)
      obtain ⟨-, rfl⟩ := h
      exact ⟨congrArg r.follow hstage, hstill⟩
  | participate call =>
      obtain ⟨hanswer, hstill⟩ := h.participate r.txn call
      exact ⟨congrArg (fun answer : Except StoreError Reply => r.hear (answer.map .reply)) hanswer,
        hstill⟩
  | describe subject text =>
      exact ⟨rfl, (h.onStore fun store => ((), store.describe r.txn subject text)).2⟩
  | cancel cause =>
      obtain ⟨hmoved, hstill⟩ := h.onStore (·.updateTxn r.txn (·.abort cause))
      exact ⟨congrArg (fun moved => r.hear (.ok (.cancelled moved))) hmoved, hstill⟩
  | check =>
      obtain ⟨hanswer, hstill⟩ := h.onStore (·.checkActive r.txn)
      exact ⟨congrArg (fun answer : Except StoreError Unit => r.hear (answer.map fun _ => .active))
        hanswer, hstill⟩
  | fail fault => exact ⟨rfl, h⟩

theorem Undisturbed.cleanUp {s : Contended ρo ρn} {bare : StoreService ρo ρn Memory}
    (h : s.Undisturbed bare) (e : StoreError) (t : TxnId) :
    (Run.cleanUp e t s).Undisturbed (Run.cleanUp e t bare) := by
  let cause : AbortCause := .requested s!"task failed: {e.message}"
  have hcancelled : (TaskHost.cancel t cause s).2.Undisturbed (TaskHost.cancel t cause bare).2 :=
    (h.onStore (·.updateTxn t (·.abort cause))).2
  have hfind : TaskHost.find t (TaskHost.cancel t cause bare).2 =
      TaskHost.find t (TaskHost.cancel t cause s).2 :=
    congrArg (fun service => service.store.register.find t) hcancelled.2
  show (if (TaskHost.find t (TaskHost.cancel t cause s).2).done then _ else _ :
      Contended ρo ρn).Undisturbed
    (if (TaskHost.find t (TaskHost.cancel t cause bare).2).done then _ else _)
  rw [hfind]
  split
  · exact hcancelled
  · exact (hcancelled.participate t .abort).2

end Contended

/-- **When nobody else acts a task takes the steps that it takes on the bare store.** -/
theorem Run.step_undisturbed {V κ ρo ρn : Type} [Reporter ρo ObjectId] [Reporter ρn NameKey]
    (r : Run V) (c : Coordinator κ) {s : Contended ρo ρn} {bare : StoreService ρo ρn Memory}
    (h : s.Undisturbed bare) :
    (r.step c s).1 = (r.step c bare).1 ∧ (r.step c s).2.1 = (r.step c bare).2.1 ∧
      (r.step c s).2.2.Undisturbed (r.step c bare).2.2 := by
  cases hstage : r.stage with
  | beginning =>
      simp only [step, hstage, true_and]
      exact (h.onStore fun store => ((), (store.begin c.nextTxn r.seniority r.lifetime).tick 1)).2
  | moving =>
      simp only [step, hstage]
      split
      · rename_i action hmove
        obtain ⟨hrun, hstill⟩ := h.act action r
        exact ⟨hrun, rfl, hstill⟩
      · exact ⟨rfl, rfl, h⟩
      · exact ⟨rfl, rfl, h⟩
  | operating stage =>
      obtain ⟨hnext, hstill⟩ := h.step r.txn stage
      simp only [step, hstage, true_and]
      exact ⟨congrArg r.follow hnext, hstill⟩
  | committing value =>
      have hcommit : (TaskHost.participate r.txn .prepareAndCommit s).1 =
            (TaskHost.participate r.txn .prepareAndCommit bare).1 ∧
          (TaskHost.participate r.txn .prepareAndCommit s).2.Undisturbed
            (TaskHost.participate r.txn .prepareAndCommit bare).2 :=
        h.participate r.txn .prepareAndCommit
      simp only [step, hstage]
      generalize TaskHost.participate r.txn .prepareAndCommit s = here at hcommit ⊢
      generalize TaskHost.participate r.txn .prepareAndCommit bare = there at hcommit ⊢
      obtain ⟨answer, s'⟩ := here
      obtain ⟨answer', bare'⟩ := there
      obtain ⟨rfl, hstill⟩ := hcommit
      cases answer with
      | ok reply => exact ⟨rfl, rfl, hstill⟩
      | error e => exact ⟨rfl, rfl, hstill⟩
  | failing e =>
      have hclean := h.cleanUp e r.txn
      simp only [step, hstage]
      split
      · split
        · exact ⟨rfl, rfl, hclean⟩
        · exact ⟨rfl, rfl, hclean⟩
      · exact ⟨rfl, rfl, hclean⟩
  | ended result =>
      simp only [step, hstage, true_and]
      exact h

end ObjectStore
