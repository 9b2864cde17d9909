/-
The account of an input or output task.

`IoPlan.recorded` is a plan that writes down what is done: each attempt and whether it succeeded, each
question about the node and its answer, and each report.  To write it down changes nothing else, so
what is true of the record is true of the run.

The record has one form.  It is a number of failed attempts, after each of which the node was found
alive, and then one of three endings.  How many failures there can be before each ending is all that
the retries decide, and every count of the record is read off this form.
-/
import ObjectStore.Service.IoTask

namespace ObjectStore

/-- Something that is done for an input or output task. -/
inductive IoEvent where
  /-- An attempt was made. -/
  | tried (succeeded : Bool)
  /-- It was asked whether the node is alive. -/
  | asked (isAlive : Bool)
  /-- The node was reported. -/
  | reported
  deriving DecidableEq

/-- Whether the event is an attempt. -/
def IoEvent.isAttempt : IoEvent → Bool
  | tried _ => true
  | _ => false

/-! ### The record -/

namespace IoPlan

variable {σ : Type}

/-- The plan that also records what is done. -/
def recorded (p : IoPlan σ) : IoPlan (List IoEvent × σ) where
  attempt made := fun (events, s) =>
    let (succeeded, s) := p.attempt made s
    (succeeded, events ++ [.tried succeeded], s)
  isAlive := fun (events, s) =>
    let (isAlive, s) := p.isAlive s
    (isAlive, events ++ [.asked isAlive], s)
  report := fun (events, s) => (events ++ [.reported], p.report s)

end IoPlan

/-! ### Its form -/

/-- Failed attempts, after each of which the node is found alive. -/
def failures : Nat → List IoEvent
  | 0 => []
  | n + 1 => .tried false :: .asked true :: failures n

namespace IoOutcome

/-- What is done last. -/
def ending : IoOutcome → List IoEvent
  | completed => [.tried true]
  | nodeDead => [.tried false, .asked false]
  | reportedFailed => [.tried false, .reported]

/-- Whether a task with some retries can end so after a number of retries. -/
def CanEnd (retries retried : Nat) : IoOutcome → Prop
  | completed => retried ≤ retries
  | nodeDead => retried < retries
  | reportedFailed => retried = retries

variable {outcome : IoOutcome} {retries retried : Nat}

/-- A retry before is a retry more. -/
theorem CanEnd.succ (h : outcome.CanEnd retries retried) :
    outcome.CanEnd (retries + 1) (retried + 1) := by
  cases outcome with
  | completed => exact Nat.succ_le_succ h
  | nodeDead => exact Nat.succ_lt_succ h
  | reportedFailed => exact congrArg Nat.succ h

theorem CanEnd.le (h : outcome.CanEnd retries retried) : retried ≤ retries := by
  cases outcome with
  | completed => exact h
  | nodeDead => exact Nat.le_of_lt h
  | reportedFailed => exact Nat.le_of_eq h

end IoOutcome

namespace IoPlan

variable {σ : Type}

/-- **The record of a run has the form.**  The induction is on the retries that are left: a failure
after which the node is found alive puts a pair before the record of the rest. -/
theorem run_recorded (p : IoPlan σ) (retries : Nat) :
    ∀ (made : Nat) (events : List IoEvent) (s : σ), ∃ retried,
      (p.run retries made s).1.CanEnd retries retried ∧
        (p.run retries made s).2.1 = made + retried + 1 ∧
          p.recorded.run retries made (events, s) =
            ((p.run retries made s).1, (p.run retries made s).2.1,
              events ++ failures retried ++ (p.run retries made s).1.ending,
              (p.run retries made s).2.2) := by
  induction retries with
  | zero =>
      intro made events s
      refine ⟨0, ?_⟩
      unfold run
      rcases hattempt : p.attempt made s with ⟨succeeded, s'⟩
      cases succeeded <;>
        simp [recorded, hattempt, IoOutcome.CanEnd, IoOutcome.ending, failures]
  | succ retries ih =>
      intro made events s
      rcases hattempt : p.attempt made s with ⟨succeeded, s'⟩
      cases succeeded with
      | true =>
          refine ⟨0, ?_⟩
          unfold run
          simp [recorded, hattempt, IoOutcome.CanEnd, IoOutcome.ending, failures]
      | false =>
          rcases hasked : p.isAlive s' with ⟨isAlive, s''⟩
          cases isAlive with
          | false =>
              refine ⟨0, ?_⟩
              unfold run
              simp [recorded, hattempt, hasked, IoOutcome.CanEnd, IoOutcome.ending, failures]
          | true =>
              obtain ⟨retried, hends, hmade, hrecord⟩ :=
                ih (made + 1) (events ++ [.tried false] ++ [.asked true]) s''
              have hrun : p.run (retries + 1) made s = p.run retries (made + 1) s'' := by
                rw [run, hattempt]
                simp [hasked]
              have hrecorded : p.recorded.run (retries + 1) made (events, s) =
                  p.recorded.run retries (made + 1)
                    (events ++ [.tried false] ++ [.asked true], s'') := by
                rw [run]
                simp [recorded, hattempt, hasked]
              rw [hrun, hrecorded]
              refine ⟨retried + 1, hends.succ, by omega, ?_⟩
              rw [hrecord]
              simp [failures]

end IoPlan

/-! ### What can be counted in it -/

theorem count_tried_failures (n : Nat) : (failures n).count (.tried false) = n := by
  induction n with
  | zero => rfl
  | succ n ih => simp [failures, ih]

theorem count_asked_failures (n : Nat) : (failures n).count (.asked true) = n := by
  induction n with
  | zero => rfl
  | succ n ih => simp [failures, ih]

theorem countP_isAttempt_failures (n : Nat) : (failures n).countP IoEvent.isAttempt = n := by
  induction n with
  | zero => rfl
  | succ n ih =>
      unfold failures
      rw [List.countP_cons, List.countP_cons, ih]
      rfl

theorem mem_failures {n : Nat} {event : IoEvent} (h : event ∈ failures n) :
    event = .tried false ∨ event = .asked true := by
  induction n with
  | zero => exact absurd h List.not_mem_nil
  | succ n ih =>
      rcases List.mem_cons.mp h with rfl | hrest
      · exact Or.inl rfl
      · rcases List.mem_cons.mp hrest with rfl | hrest
        · exact Or.inr rfl
        · exact ih hrest

/-- What a record says of a task with some retries that has ended after `made` attempts. -/
structure IoAccount (retries : Nat) (outcome : IoOutcome) (made : Nat) (events : List IoEvent) :
    Prop where
  /-- Another attempt follows a failure only while there are retries left, and only if the node was
  then found alive. -/
  form : ∃ retried, outcome.CanEnd retries retried ∧ events = failures retried ++ outcome.ending
  completed_iff : outcome = .completed ↔ .tried true ∈ events
  nodeDead_iff : outcome = .nodeDead ↔ .asked false ∈ events
  reportedFailed_iff : outcome = .reportedFailed ↔
    events.count (.tried false) = retries + 1 ∧ events.count (.asked true) = retries
  attempts : events.countP IoEvent.isAttempt = made
  made_le : made ≤ retries + 1
  reports : events.count .reported = if outcome = .reportedFailed then 1 else 0

/-- **All that is said follows from the form.** -/
theorem IoAccount.of_form {retries retried : Nat} {outcome : IoOutcome}
    (h : outcome.CanEnd retries retried) :
    IoAccount retries outcome (retried + 1) (failures retried ++ outcome.ending) := by
  have htried : .tried true ∉ failures retried := fun hin => by
    rcases mem_failures hin with heq | heq <;> cases heq
  have hasked : .asked false ∉ failures retried := fun hin => by
    rcases mem_failures hin with heq | heq <;> cases heq
  have hreported : .reported ∉ failures retried := fun hin => by
    rcases mem_failures hin with heq | heq <;> cases heq
  have hnone : (failures retried).count .reported = 0 := List.count_eq_zero.mpr hreported
  refine ⟨⟨retried, h, rfl⟩, ?_, ?_, ?_, ?_, Nat.succ_le_succ h.le, ?_⟩
  · cases outcome <;> simp [IoOutcome.ending, htried]
  · cases outcome <;> simp [IoOutcome.ending, hasked]
  · cases outcome with
    | completed =>
        -- The last attempt is not a failure, and there are not so many before it.
        have hle : retried ≤ retries := h
        simp [IoOutcome.ending, count_tried_failures]
        omega
    | nodeDead =>
        -- The last question has not found the node alive.
        have hlt : retried < retries := h
        simp [IoOutcome.ending, count_tried_failures]
        omega
    | reportedFailed =>
        have heq : retried = retries := h
        simp [IoOutcome.ending, count_tried_failures, count_asked_failures, heq]
  · rw [List.countP_append, countP_isAttempt_failures]
    cases outcome <;> rfl
  · rw [List.count_append, hnone]
    cases outcome <;> rfl

theorem TaskContext.inTransaction_iff (context : TaskContext) :
    context.inTransaction = true ↔
      ∃ txn, context = some txn ∧ (txn.state = .active ∨ txn.state = .prepared) := by
  cases context with
  | none => simp [inTransaction]
  | some txn => simp [inTransaction, Txn.isOpen]

namespace IoPlan

variable {σ : Type}

/--
**Every run of a task is accounted for.**  The task, the check of the node and the report may do
anything and answer anything, each time anew, and there may be any number of retries.  In a transaction
that is active or prepared the run is refused, and none of the three is called.  Otherwise it comes to
an outcome, and `IoAccount` says what has been done and answered on the way.  In neither case would
anything have been different without the record.
-/
theorem run_accounted (p : IoPlan σ) (context : TaskContext) (retries : Nat) (s : σ) :
    let (result, made, events, s') := p.recorded.runIn context retries ([], s)
    p.runIn context retries s = (result, made, s') ∧
      ((∃ txn, context = some txn ∧ (txn.state = .active ∨ txn.state = .prepared)) ∧
          result = .error .transactionalContext ∧ made = 0 ∧ events = [] ∧ s' = s ∨
        (∀ txn, context = some txn → txn.state = .committed ∨ txn.state = .aborted) ∧
          ∃ outcome, result = .ok outcome ∧ IoAccount retries outcome made events) := by
  by_cases hcontext : context.inTransaction = true
  · unfold runIn
    rw [if_pos hcontext, if_pos hcontext]
    exact ⟨rfl, Or.inl ⟨context.inTransaction_iff.mp hcontext, rfl, rfl, rfl, rfl⟩⟩
  · obtain ⟨retried, hends, hmade, hrecord⟩ := p.run_recorded retries 0 [] s
    have hmade' : (p.run retries 0 s).2.1 = retried + 1 := by omega
    simp only [runIn, if_neg hcontext, hrecord, List.nil_append, true_and]
    refine Or.inr ⟨fun txn htxn => ?_, _, rfl, ?_⟩
    · rw [context.inTransaction_iff] at hcontext
      cases hstate : txn.state with
      | active => exact absurd ⟨txn, htxn, Or.inl hstate⟩ hcontext
      | prepared => exact absurd ⟨txn, htxn, Or.inr hstate⟩ hcontext
      | committed => exact Or.inl rfl
      | aborted => exact Or.inr rfl
    · rw [hmade']
      exact .of_form hends

/-- A task that always fails, at a node that is found alive as often as the state counts. -/
def dyingNode : IoPlan Nat where
  attempt := fun _ s => (false, s)
  isAlive := fun s => (decide (0 < s), s - 1)
  report := id

/-- With two retries, a node that dies before the second is not reported; without any, it is not even
asked for. -/
example :
    dyingNode.recorded.runIn none 2 ([], 1) =
        (.ok .nodeDead, 2, [.tried false, .asked true, .tried false, .asked false], 0) ∧
      dyingNode.recorded.runIn none 0 ([], 1) =
        (.ok .reportedFailed, 1, [.tried false, .reported], 1) :=
  ⟨rfl, rfl⟩

end IoPlan

end ObjectStore
