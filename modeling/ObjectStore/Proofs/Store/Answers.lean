/-
What the answers of a transaction add up to.

Where every answer adds something, by the operation and the answer, `gathered` is all that the
answers of a transaction in a log have added.  An operation under way whose answer is decided is
bound to add to that, and `pledged` counts it already, so that what a step of an operation does can
be told from the stages before and after it, whether it ends the operation or not.
-/
import ObjectStore.Proofs.Store.Plan
import ObjectStore.Proofs.Store.Step

namespace ObjectStore

variable {α : Type}

/-- What an event adds, if it answers the transaction. -/
def Event.gathered (f : Operation → Except StoreError Reply → List α) (t : TxnId) : Event → List α
  | .answered u op result => if u = t then f op result else []
  | _ => []

/-- What the answers of a transaction have added in the course of a log. -/
def gathered (f : Operation → Except StoreError Reply → List α) (t : TxnId) (log : List Event) :
    List α :=
  log.flatMap (Event.gathered f t)

/-- What an operation at a stage is bound to add. -/
def Stage.gathered (f : Operation → Except StoreError Reply → List α) (op : Operation)
    (stage : Stage) : List α :=
  match stage.outcome? with
  | some result => f op result
  | none => []

/-- What the call under way is bound to add. -/
def Call.gathered (f : Operation → Except StoreError Reply → List α) : Option Call → List α
  | some (.operation op stage) => stage.gathered f op
  | _ => []

/-- What the answers of a transaction have added, with what its call is bound to add. -/
def pledged (f : Operation → Except StoreError Reply → List α) (calls : FinMap TxnId Call)
    (log : List Event) (t : TxnId) : List α :=
  ObjectStore.gathered f t log ++ Call.gathered f (calls.get? t)

section Gathered

variable {f : Operation → Except StoreError Reply → List α} {t : TxnId}

theorem gathered_append (log log' : List Event) :
    gathered f t (log ++ log') = gathered f t log ++ gathered f t log' :=
  List.flatMap_append

theorem gathered_eq_nil {events : List Event} (h : ∀ op result, .answered t op result ∉ events) :
    gathered f t events = [] := by
  refine List.flatMap_eq_nil_iff.mpr fun event hevent => ?_
  cases event with
  | answered u op result =>
      refine if_neg ?_
      rintro rfl
      exact h op result hevent
  | _ => rfl

theorem gathered_ofParticipantStep (u : TxnId) (call : ParticipantCall)
    (stage stage' : ParticipantStage) :
    gathered f t (Event.ofParticipantStep u call stage stage') = [] := by
  unfold Event.ofParticipantStep
  split <;> rfl

end Gathered

section Pledged

variable {f : Operation → Except StoreError Reply → List α} {calls : FinMap TxnId Call}
variable {log : List Event} {t : TxnId} {op : Operation} {stage stage' : Stage}

theorem pledged_of_operation (hcall : calls.get? t = some (.operation op stage)) :
    pledged f calls log t = gathered f t log ++ stage.gathered f op := by
  unfold pledged
  rw [hcall]
  rfl

theorem pledged_of_participation {call : ParticipantCall} {stage : ParticipantStage}
    (hcall : calls.get? t = some (.participation call stage)) :
    pledged f calls log t = gathered f t log := by
  unfold pledged
  rw [hcall]
  exact List.append_nil _

theorem pledged_of_free (hfree : calls.get? t = none) :
    pledged f calls log t = gathered f t log := by
  unfold pledged
  rw [hfree]
  exact List.append_nil _

/-- After a step of an operation what is pledged goes by the next stage, whether that has ended the
operation or not. -/
theorem pledged_step :
    pledged f (calls.change t (Call.ofStage op stage')) (log ++ Event.ofStep t op stage stage') t =
      gathered f t log ++ stage'.gathered f op := by
  unfold pledged
  rw [FinMap.get?_change_self, gathered_append]
  cases stage' with
  | ended result => cases stage <;> simp [Event.ofStep, gathered, Event.gathered, Call.ofStage,
      Call.gathered, Stage.gathered, Stage.outcome?]
  | _ => cases stage <;> simp [Event.ofStep, gathered, Event.gathered, Call.ofStage, Call.gathered]

theorem pledged_participantStep {call : ParticipantCall} {stage stage' : ParticipantStage}
    (hcall : calls.get? t = some (.participation call stage)) (u : TxnId) :
    pledged f (calls.change t (Call.ofParticipantStage call stage'))
      (log ++ Event.ofParticipantStep t call stage stage') u = pledged f calls log u := by
  unfold pledged
  rw [FinMap.get?_change, gathered_append, gathered_ofParticipantStep, List.append_nil]
  by_cases h : t = u
  · rw [if_pos h, ← h, hcall]
    cases stage' <;> rfl
  · rw [if_neg h]

/-- A call that begins with nothing to add yet leaves what is pledged. -/
theorem pledged_insert {call : Call} (hfree : calls.get? t = none)
    (hnew : Call.gathered f (some call) = []) (u : TxnId) :
    pledged f (calls.insert t call) log u = pledged f calls log u := by
  unfold pledged
  rw [FinMap.get?_insert]
  by_cases h : t = u
  · rw [if_pos h, ← h, hfree, hnew]
    rfl
  · rw [if_neg h]

end Pledged

end ObjectStore
