/-
Scans for the next name.

A log shows what a transaction was told of, and whether it has changed names since: `Scanned`.  While
a scan is under way it has a candidate for the next name, which was next when the scan asked for it.
-/
import ObjectStore.Proofs.Backend.Gap
import ObjectStore.Proofs.Store.Plan
import ObjectStore.Proofs.Store.Step

namespace ObjectStore

/-! ### Changes -/

/-- Whether an operation binds a name or removes a binding. -/
def Operation.isChange : Operation → Bool
  | .setBinding _ _ => true
  | .removeBinding _ => true
  | _ => false

/-- Whether the operation under way is one. -/
def Call.isChange : Option Call → Bool
  | some (.operation op _) => op.isChange
  | _ => false

/-- Whether such an operation of a transaction has come to its end. -/
def Event.isChangeOf (t : TxnId) : Event → Bool
  | .answered u op _ => decide (u = t) && op.isChange
  | _ => false

theorem Acted.keepsNames_of_isChange {t : TxnId} {m m' : Memory} {plan : Plan} {stage' : Stage}
    {op : Operation} (h : Acted t m plan stage' m') (hfits : plan.Fits op)
    (hop : op.isChange = false) : m.KeepsNames t m' := by
  cases h with
  | fails hkeeps => exact hkeeps
  | plain hkeeps => exact hkeeps
  | rebinds =>
      rw [show op = .setBinding _ _ from hfits] at hop
      cases hop
  | binds =>
      rw [show op = .setBinding _ _ from hfits] at hop
      cases hop
  | unbinds =>
      rw [show op = .removeBinding _ from hfits] at hop
      cases hop
  | _ => exact .refl t m

/-! ### Scans in a log -/

/-- A transaction has been told of a next name, and has changed no name since. -/
def Scanned (log : List Event) (t : TxnId) (after next : Option Name) : Prop :=
  ∃ before rest, log = before ++ .answered t (.nextName after) (.ok (.nextName next)) :: rest ∧
    ∀ e ∈ rest, e.isChangeOf t = false

/-- What stands in a log that grows stood there before, or has been added. -/
theorem append_eq_append_cons {log events before rest : List Event} {e : Event}
    (h : log ++ events = before ++ e :: rest) :
    (∃ rest', log = before ++ e :: rest' ∧ rest = rest' ++ events) ∨
      ∃ before', before = log ++ before' ∧ events = before' ++ e :: rest := by
  rcases List.append_eq_append_iff.mp h with ⟨before', hbefore, hevents⟩ | ⟨rest', hlog, hrest⟩
  · exact Or.inr ⟨before', hbefore, hevents⟩
  · cases rest' with
    | nil =>
        rw [List.append_nil] at hlog
        exact Or.inr ⟨[], by rw [hlog, List.append_nil], hrest.symm⟩
    | cons e' rest' =>
        obtain ⟨rfl, hrest'⟩ := List.cons.inj hrest
        exact Or.inl ⟨rest', hlog, hrest'⟩

theorem Event.ofStep_eq_answered {t u : TxnId} {op op' : Operation} {stage stage' : Stage}
    {result : Except StoreError Reply} {before rest : List Event}
    (h : Event.ofStep t op stage stage' = before ++ .answered u op' result :: rest) :
    before = [] ∧ rest = [] ∧ op = op' ∧ stage' = .ended result := by
  unfold Event.ofStep at h
  split at h
  · rcases List.append_eq_singleton_iff.mp h.symm with ⟨-, hone⟩ | ⟨-, hone⟩
    · cases hone
    · cases hone
  · rcases List.append_eq_singleton_iff.mp h.symm with ⟨rfl, hone⟩ | ⟨-, hone⟩
    · cases hone
      exact ⟨rfl, rfl, rfl, rfl⟩
    · cases hone
  · exact absurd h.symm (by simp)

namespace Scanned

variable {log events : List Event} {t : TxnId} {after next : Option Name}

theorem of_append (h : Scanned (log ++ events) t after next) :
    Scanned log t after next ∧ (∀ e ∈ events, e.isChangeOf t = false) ∨
      .answered t (.nextName after) (.ok (.nextName next)) ∈ events := by
  obtain ⟨before, rest, hlog, hrest⟩ := h
  rcases append_eq_append_cons hlog with ⟨rest', hold, rfl⟩ | ⟨before', -, hnew⟩
  · refine Or.inl ⟨⟨before, rest', hold, ?_⟩, ?_⟩
    · intro e he
      exact hrest e (List.mem_append_left events he)
    · intro e he
      exact hrest e (List.mem_append_right rest' he)
  · rw [hnew]
    exact Or.inr (List.mem_append_right before' List.mem_cons_self)

theorem ofStep {op : Operation} {stage stage' : Stage}
    (h : Scanned (log ++ Event.ofStep t op stage stage') t after next) :
    Scanned log t after next ∧ (∀ result, stage' = .ended result → op.isChange = false) ∨
      op = .nextName after ∧ stage' = .ended (.ok (.nextName next)) := by
  rcases h.of_append with ⟨hold, hquiet⟩ | hanswer
  · refine Or.inl ⟨hold, ?_⟩
    rintro result rfl
    have hin : .answered t op result ∈ Event.ofStep t op stage (.ended result) := by
      cases stage <;> exact List.mem_singleton_self _
    simpa [Event.isChangeOf] using hquiet _ hin
  · refine Or.inr ?_
    unfold Event.ofStep at hanswer
    split at hanswer
    · exact absurd hanswer (by simp)
    · cases List.mem_singleton.mp hanswer
      exact ⟨rfl, rfl⟩
    · exact absurd hanswer List.not_mem_nil

end Scanned

/-! ### Candidates -/

/-- What an operation that follows the next name takes for it. -/
def Plan.candidate? : Plan → Option (Option Name)
  | .confirm _ candidate => some candidate
  | _ => none

@[inherit_doc Plan.candidate?]
def Stage.candidate? : Stage → Option (Option Name)
  | .report _ plan => plan.candidate?
  | .waiting _ _ plan => plan.candidate?
  | .act plan => plan.candidate?
  | _ => none

/-- Whether the operation has been allowed to go on. -/
def Stage.isAllowed : Stage → Bool
  | .act _ => true
  | _ => false

/-- A scan takes for the next name what is next when it asks. -/
theorem Acted.follows_of_candidate {t : TxnId} {m m' : Memory} {plan : Plan} {stage' : Stage}
    {after candidate : Option Name} (h : Acted t m plan stage' m')
    (hfits : plan.Fits (.nextName after)) (hcandidate : stage'.candidate? = some candidate) :
    m' = m ∧ Follows (m.Sees t) after candidate := by
  cases h with
  | scans =>
      cases hfits
      cases hcandidate
      exact ⟨rfl, m.follows_nextName? t after⟩
  | @again scan _ _ _ hnext =>
      cases scan with
      | removal name wasBound => cases hfits
      | next after' =>
          cases hfits
          cases hcandidate
          rw [← hnext]
          exact ⟨rfl, m.follows_nextName? t after⟩
  | unbinds => cases hfits
  | foundUnbound => cases hfits
  | @settles scan locked =>
      generalize scan.answer locked = result at hcandidate
      cases result <;> cases hcandidate
  | @answers result => cases result <;> cases hcandidate
  | _ => cases hcandidate

section Steps

variable {s s' : LockingStore Memory} {t : TxnId} {stage : Stage} {after next : Option Name}

/-- An operation is allowed to go on only if it has reported its access, and is active. -/
theorem OperationStep.of_isAllowed {plan : Plan} (h : OperationStep s t stage (.act plan) s') :
    (∃ access, stage = .report access plan) ∧ s.register.stateOf t = .active ∧
      s'.backend = s.backend := by
  have hstep := h
  cases h with
  | reportsObject _ hstage =>
      cases hstage
      exact ⟨⟨_, rfl⟩, hstep.active_of_allowed, rfl⟩
  | reportsName _ hstage =>
      cases hstage
      exact ⟨⟨_, rfl⟩, hstep.active_of_allowed, rfl⟩
  | acts hact => exact absurd rfl ((acted_of_act hact).ne_act plan)

/-- A scan answers the candidate that it has locked, if that is still the next name. -/
theorem OperationStep.follows_of_answer
    (h : OperationStep s t stage (.ended (.ok (.nextName next))) s')
    (hfits : stage.Fits (.nextName after)) :
    stage = .act (.confirm (.next after) next) ∧ s'.backend = s.backend ∧
      s.backend.isShutDown = false ∧ Follows (s.backend.Sees t) after next := by
  generalize hend : Stage.ended (.ok (.nextName next)) = stage' at h
  cases h with
  | reportsObject _ hstage => cases hstage <;> cases hend
  | reportsName _ hstage => cases hstage <;> cases hend
  | wakes => cases hend
  | fails => cases hend
  | @acts plan _ backend hact =>
      have hacted := acted_of_act hact
      cases hacted with
      | plain _ hplain =>
          exact absurd rfl ((Plan.nameless_of_isPlain hplain hfits).2 after)
      | @settles scan locked hopen hsame =>
          cases scan with
          | removal name wasBound => cases hfits
          | next after' =>
              cases hfits
              cases hend
              rw [← hsame]
              exact ⟨rfl, rfl, hopen, s.backend.follows_nextName? t after⟩
      | @answers result =>
          cases result with
          | ok reply =>
              cases hend
              rcases hfits with ⟨_, hop, -⟩ | ⟨_, _, hop, -⟩ | ⟨_, hop⟩
              · cases hop
              · cases hop
              · cases hop
          | error e => cases hend
      | _ => cases hend

end Steps

end ObjectStore
