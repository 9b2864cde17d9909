/-
What transactions have learned of the names.

The transcript of a transaction holds the point operations that told it something of a name, with
their answers.  An operation under way whose answer is decided counts as well, in the tentative
transcript.

What a step of an operation does to the names it does to the transcript: `Acted.transcript_cases`
says of a plan that it reads or writes the name of its operation, or adds nothing to either.
-/
import ObjectStore.Proofs.Store.Answers

namespace ObjectStore

/-- Whether an answer tells something: an object, a success, or that a name is not bound. -/
def isFinding : Except StoreError Reply → Bool
  | .ok _ => true
  | .error (.nameNotBound _) => true
  | .error _ => false

/-- What an answer adds to a transcript: point operations only, and only what tells something. -/
def finding (op : Operation) (result : Except StoreError Reply) : Transcript :=
  if op.name?.isSome && isFinding result then [(op, result)] else []

/-- What an event adds to the transcript of a transaction. -/
def Event.transcript (t : TxnId) : Event → Transcript
  | .answered u op result => if u = t then finding op result else []
  | _ => []

/-- What a transaction has learned in the course of a log. -/
def transcript (t : TxnId) (log : List Event) : Transcript := log.flatMap (Event.transcript t)

/-- What an operation at a stage is bound to add. -/
def Stage.transcript (op : Operation) (stage : Stage) : Transcript :=
  match stage.outcome? with
  | some result => finding op result
  | none => []

/-- What the call under way is bound to add. -/
def Call.transcript : Option Call → Transcript
  | some (.operation op stage) => stage.transcript op
  | _ => []

/-- The transcript of a transaction, with what its call is bound to add. -/
def tentative (calls : FinMap TxnId Call) (log : List Event) (t : TxnId) : Transcript :=
  ObjectStore.transcript t log ++ Call.transcript (calls.get? t)

theorem transcript_eq_gathered (t : TxnId) (log : List Event) :
    transcript t log = gathered finding t log := by
  refine congrArg (log.flatMap ·) (funext fun event => ?_)
  cases event <;> rfl

theorem tentative_eq_pledged (calls : FinMap TxnId Call) (log : List Event) (t : TxnId) :
    tentative calls log t = pledged finding calls log t := by
  unfold tentative
  rw [transcript_eq_gathered]
  rfl

/-! ### Findings -/

theorem mem_finding {op : Operation} {result : Except StoreError Reply}
    {entry : Operation × Except StoreError Reply} (h : entry ∈ finding op result) :
    entry = (op, result) := by
  unfold finding at h
  split at h
  · exact List.mem_singleton.mp h
  · exact absurd h List.not_mem_nil

theorem isSome_name?_of_mem_finding {op : Operation} {result : Except StoreError Reply}
    {entry : Operation × Except StoreError Reply} (h : entry ∈ finding op result) :
    entry.1.name?.isSome = true := by
  rw [mem_finding h]
  unfold finding at h
  split at h
  · rename_i htells
    exact (Bool.and_eq_true_iff.mp htells).1
  · exact absurd h List.not_mem_nil

theorem finding_of_name?_eq_none {op : Operation} (h : op.name? = none)
    (result : Except StoreError Reply) : finding op result = [] := by
  simp [finding, h]

theorem finding_error {op : Operation} {e : StoreError} (h : ∀ name, e ≠ .nameNotBound name) :
    finding op (.error e) = [] := by
  unfold finding
  cases e with
  | nameNotBound name => exact absurd rfl (h name)
  | _ => simp [isFinding]

/-- Point operations always tell something when they come to an end. -/
theorem finding_effect {op : Operation} {name : Name} (h : op.name? = some name)
    (before : Option ObjectId) :
    finding op (op.effect before).1 = [(op, (op.effect before).1)] := by
  unfold finding
  cases op <;> cases h <;> cases before <;> rfl

theorem transcript_append (t : TxnId) (log log' : List Event) :
    transcript t (log ++ log') = transcript t log ++ transcript t log' := by
  simp only [transcript_eq_gathered]
  exact gathered_append log log'

theorem transcript_ofStep_of_ne {t u : TxnId} (h : t ≠ u) (op : Operation) (stage stage' : Stage) :
    transcript u (Event.ofStep t op stage stage') = [] := by
  unfold Event.ofStep
  split <;> simp [transcript, Event.transcript, h]

theorem transcript_ofParticipantStep (t u : TxnId) (call : ParticipantCall)
    (stage stage' : ParticipantStage) :
    transcript u (Event.ofParticipantStep t call stage stage') = [] :=
  (transcript_eq_gathered _ _).trans (gathered_ofParticipantStep t call stage stage')

section Tentative

variable {calls : FinMap TxnId Call} {log : List Event} {t u : TxnId} {op : Operation}
variable {stage stage' : Stage}

theorem tentative_of_operation (hcall : calls.get? t = some (.operation op stage)) :
    tentative calls log t = transcript t log ++ stage.transcript op := by
  rw [tentative_eq_pledged, transcript_eq_gathered]
  exact pledged_of_operation hcall

theorem tentative_of_participation {call : ParticipantCall} {stage : ParticipantStage}
    (hcall : calls.get? t = some (.participation call stage)) :
    tentative calls log t = transcript t log := by
  rw [tentative_eq_pledged, transcript_eq_gathered]
  exact pledged_of_participation hcall

/-- After a step of an operation the tentative transcript goes by the next stage, whether that has
ended the operation or not. -/
theorem tentative_step :
    tentative (calls.change t (Call.ofStage op stage')) (log ++ Event.ofStep t op stage stage') t =
      transcript t log ++ stage'.transcript op := by
  rw [tentative_eq_pledged, transcript_eq_gathered]
  exact pledged_step

/-- If the operation is not bound to add anything new, neither is there anything new. -/
theorem mem_tentative_of_step (hcall : calls.get? t = some (.operation op stage))
    (htranscript : stage'.transcript op = stage.transcript op ∨ stage'.transcript op = [])
    {entry : Operation × Except StoreError Reply}
    (hentry : entry ∈ tentative (calls.change t (Call.ofStage op stage'))
      (log ++ Event.ofStep t op stage stage') t) : entry ∈ tentative calls log t := by
  rw [tentative_step] at hentry
  rw [tentative_of_operation hcall]
  rcases htranscript with hsame | hnothing
  · rwa [hsame] at hentry
  · rw [hnothing, List.append_nil] at hentry
    exact List.mem_append_left _ hentry

theorem tentative_participantStep {call : ParticipantCall} {stage stage' : ParticipantStage}
    (hcall : calls.get? t = some (.participation call stage)) (u : TxnId) :
    tentative (calls.change t (Call.ofParticipantStage call stage'))
      (log ++ Event.ofParticipantStep t call stage stage') u = tentative calls log u := by
  rw [tentative_eq_pledged, tentative_eq_pledged]
  exact pledged_participantStep hcall u

/-- A transcript holds nothing but point operations. -/
theorem isSome_name?_of_mem_tentative {entry : Operation × Except StoreError Reply}
    (h : entry ∈ tentative calls log t) : entry.1.name?.isSome = true := by
  rcases List.mem_append.mp h with hlog | hcall
  · obtain ⟨event, -, hentry⟩ := List.mem_flatMap.mp hlog
    cases event with
    | answered u op result =>
        simp only [Event.transcript] at hentry
        split at hentry
        · exact isSome_name?_of_mem_finding hentry
        · exact absurd hentry List.not_mem_nil
    | _ => exact absurd hentry List.not_mem_nil
  · unfold Call.transcript at hcall
    split at hcall
    · unfold Stage.transcript at hcall
      split at hcall
      · exact isSome_name?_of_mem_finding hcall
      · exact absurd hcall List.not_mem_nil
    · exact absurd hcall List.not_mem_nil

theorem tentative_insert {call : Call} (hfree : calls.get? t = none)
    (hnew : Call.transcript (some call) = []) (u : TxnId) :
    tentative (calls.insert t call) log u = tentative calls log u := by
  rw [tentative_eq_pledged, tentative_eq_pledged]
  exact pledged_insert hfree hnew u

end Tentative

/-! ### Carrying a plan out -/

theorem Plan.outcome?_of_point? {plan : Plan} {op : Operation} (h : plan.point? = some op) :
    plan.outcome? = none := by
  cases plan <;> cases h <;> rfl

theorem Plan.exists_name?_of_point? {plan : Plan} {op : Operation} (h : plan.point? = some op) :
    ∃ name, op.name? = some name := by
  cases plan <;> cases h <;> exact ⟨_, rfl⟩

/-- A plan that is neither a point operation nor has an answer is one of an operation that is not
about a name. -/
theorem Plan.name?_eq_none {plan : Plan} {op : Operation} (hfits : plan.Fits op)
    (hpoint : plan.point? = none) (houtcome : plan.outcome? = none) : op.name? = none := by
  by_cases hplain : plan.isPlain = true
  · exact name?_of_isPlain hplain hfits
  · cases plan with
    | beginScan after =>
        rw [show op = .nextName after from hfits]
        rfl
    | confirm scan locked =>
        cases scan with
        | removal name wasBound => cases houtcome
        | next after =>
            rw [show op = .nextName after from hfits]
            rfl
    | answer result => cases houtcome
    | getBinding => cases hpoint
    | setBinding => cases hpoint
    | removeBinding => cases hpoint
    | _ => exact absurd rfl hplain

/-- **A plan that is carried out acts on the name of its operation, or leaves the names and the
transcript alone.**  If the backend is shut down, a decided answer may be lost. -/
theorem Acted.transcript_cases {t : TxnId} {m m' : Memory} {plan : Plan} {stage' : Stage}
    {op : Operation} (h : Acted t m plan stage' m') (hfits : plan.Fits op) :
    (∃ name, op.name? = some name ∧ plan.point? = some op ∧ ActsOnName op name t m stage' m') ∨
      m.KeepsNames t m' ∧
        (stage'.transcript op = (Stage.act plan).transcript op ∨
          m.isShutDown = true ∧ stage'.transcript op = []) := by
  cases hshut : m.isShutDown with
  | false =>
      cases hpoint : plan.point? with
      | some op' =>
          obtain rfl := plan.fits_of_point? hpoint hfits
          obtain ⟨name, hname⟩ := plan.exists_name?_of_point? hpoint
          exact Or.inl ⟨name, hname, rfl, h.point hpoint hname hshut⟩
      | none =>
          refine Or.inr ⟨h.keepsNames hpoint, Or.inl ?_⟩
          unfold Stage.transcript
          cases houtcome : plan.outcome? with
          | some result => rw [h.outcome hshut houtcome, Stage.outcome?, houtcome]
          | none =>
              have hnameless := plan.name?_eq_none hfits hpoint houtcome
              rw [Stage.outcome?, houtcome]
              cases stage'.outcome? with
              | none => rfl
              | some result => exact finding_of_name?_eq_none hnameless result
  | true =>
      refine Or.inr ?_
      cases h with
      | fails hkeeps hwhy =>
          refine ⟨hkeeps, Or.inr ⟨rfl, ?_⟩⟩
          rcases hwhy with ⟨-, hlost⟩ | hplain
          · exact finding_error hlost
          · exact finding_of_name?_eq_none (plan.name?_of_isPlain hplain hfits) _
      | plain hkeeps hplain =>
          have hnameless := plan.name?_of_isPlain hplain hfits
          exact ⟨hkeeps, Or.inr ⟨rfl, finding_of_name?_eq_none hnameless _⟩⟩
      | nextItem => exact ⟨.refl t m, Or.inl rfl⟩
      | nextObject => exact ⟨.refl t m, Or.inr ⟨rfl, by rw [show op = _ from hfits]; rfl⟩⟩
      | @answers result => exact ⟨.refl t m, Or.inl (by cases result <;> rfl)⟩
      | _ hopen => simp [hshut] at hopen

end ObjectStore
