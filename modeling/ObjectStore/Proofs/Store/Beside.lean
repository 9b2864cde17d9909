/-
What an action leaves of the transactions that it is not about.

`Beside` is what a transaction can tell of an action that is not its own: it may find itself
aborted, or the backend shut down, and all else about it is as before.  So an invariant about single
transactions is proved in two parts, by `Move.beside_or_own`: for what is beside a transaction, and
for what the transaction does itself.

One kind of step changes the committed names, and `Commits` says what it comes to.
-/
import ObjectStore.Proofs.Store.Ending
import ObjectStore.Proofs.Store.Transcript

namespace ObjectStore

/-- The transaction whose writes have been carried out. -/
def Event.committer? : Event → Option TxnId
  | .committed t => some t
  | _ => none

/-- The transactions that have been committed, in this order. -/
def commits (log : List Event) : List TxnId := log.filterMap Event.committer?

theorem commits_append (log log' : List Event) :
    commits (log ++ log') = commits log ++ commits log' :=
  List.filterMap_append

theorem mem_commits_append {log log' : List Event} {t : TxnId} :
    t ∈ commits (log ++ log') ↔ t ∈ commits log ∨ t ∈ commits log' := by
  rw [commits_append, List.mem_append]

@[simp] theorem commits_ofStep (t : TxnId) (op : Operation) (stage stage' : Stage) :
    commits (Event.ofStep t op stage stage') = [] := by
  unfold Event.ofStep
  split <;> rfl

theorem answered_not_mem_ofStep {t u : TxnId} (h : t ≠ u) (op op' : Operation)
    (stage stage' : Stage) (result : Except StoreError Reply) :
    .answered u op' result ∉ Event.ofStep t op stage stage' := by
  unfold Event.ofStep
  split <;> simp [Ne.symm h]

theorem answered_not_mem_ofParticipantStep (t u : TxnId) (call : ParticipantCall) (op : Operation)
    (stage stage' : ParticipantStage) (result : Except StoreError Reply) :
    .answered u op result ∉ Event.ofParticipantStep t call stage stage' := by
  unfold Event.ofParticipantStep
  split <;> simp

theorem mem_commits_ofParticipantStep {t u : TxnId} {call : ParticipantCall}
    {stage stage' : ParticipantStage}
    (h : u ∈ commits (Event.ofParticipantStep t call stage stage')) : u = t := by
  unfold Event.ofParticipantStep at h
  split at h
  · exact List.mem_singleton.mp h
  · exact absurd h List.not_mem_nil
  · exact absurd h List.not_mem_nil

/-! ### What others do -/

theorem Register.Wounded.status {r r' : Register} (h : r.Wounded r') (u : TxnId) :
    r'.find u = r.find u ∨ r.stateOf u = .active ∧ r'.stateOf u = .aborted := by
  rcases h.find u with hsame | ⟨hactive, cause, haborted⟩
  · exact Or.inl hsame
  · refine Or.inr ⟨hactive, ?_⟩
    rw [stateOf, haborted]
    rfl

section Others

variable {s s' : LockingStore Memory} {t u : TxnId}

theorem OperationStep.others {stage stage' : Stage} (h : OperationStep s t stage stage' s')
    (hu : t ≠ u) :
    (s'.register.find u = s.register.find u ∨
        s.register.stateOf u = .active ∧ s'.register.stateOf u = .aborted) ∧
      s'.backend.pending.get? u = s.backend.pending.get? u ∧
        s'.backend.isShutDown = s.backend.isShutDown := by
  cases h with
  | reportsObject hturn => exact ⟨(Register.wounded_turn hturn).status u, rfl, rfl⟩
  | reportsName hturn => exact ⟨(Register.wounded_turn hturn).status u, rfl, rfl⟩
  | wakes => exact ⟨Or.inl rfl, rfl, rfl⟩
  | acts hact =>
      have hacted := acted_of_act hact
      exact ⟨Or.inl rfl, hacted.others hu, hacted.isShutDown⟩
  | fails => exact ⟨Or.inl (Register.find_noteFailure_of_ne hu), rfl, rfl⟩

theorem ParticipantMove.others {stage stage' : ParticipantStage}
    (h : ParticipantMove s t stage stage' s') (hu : t ≠ u) :
    (s'.register.find u = s.register.find u ∨
        s.register.stateOf u = .active ∧ s'.register.stateOf u = .aborted) ∧
      s'.backend.pending.get? u = s.backend.pending.get? u ∧
        s'.backend.isShutDown = s.backend.isShutDown := by
  cases h with
  | refused hwounded => exact ⟨hwounded.status u, rfl, rfl⟩
  | prepares _ _ _ hother => exact ⟨Or.inl (hother u hu), rfl, rfl⟩
  | entersCommit => exact ⟨Or.inl rfl, rfl, rfl⟩
  | entersAbort _ _ hother => exact ⟨Or.inl (hother u hu), rfl, rfl⟩
  | calls hcalled =>
      have hends := called_of_callBackend hcalled
      exact ⟨Or.inl rfl, hends.others hu, hends.isShutDown⟩
  | completes _ hother => exact ⟨Or.inl (hother u hu), rfl, rfl⟩
  | releasesObjects => exact ⟨Or.inl rfl, rfl, rfl⟩
  | releasesNames => exact ⟨Or.inl rfl, rfl, rfl⟩
  | fails => exact ⟨Or.inl (Register.find_noteFailure_of_ne hu), rfl, rfl⟩

end Others

namespace Traffic

variable {w w' : LockingTraffic Memory} {t u : TxnId}

/-- An action has left a transaction as it was, or has aborted it. -/
structure Beside (w w' : LockingTraffic Memory) (u : TxnId) : Prop where
  /-- Nobody else aborts a transaction that is prepared while it participates. -/
  status : w'.store.register.find u = w.store.register.find u ∨
    w.store.register.isOpen u = true ∧
      (w.store.register.stateOf u = .active ∨ w.isParticipating u = false) ∧
        w'.store.register.stateOf u = .aborted
  call : w'.calls.get? u = w.calls.get? u
  log : ∃ events, w'.log = w.log ++ events ∧ (∀ op result, .answered u op result ∉ events) ∧
    u ∉ commits events
  writes : w'.store.backend.pending.get? u = w.store.backend.pending.get? u ∧
      w'.store.backend.isShutDown = w.store.backend.isShutDown ∨
    w'.store.backend.isShutDown = true ∧ w'.store.backend.pending.get? u = none

namespace Beside

theorem gathered {α : Type} {f : Operation → Except StoreError Reply → List α} (h : Beside w w' u) :
    gathered f u w'.log = gathered f u w.log := by
  obtain ⟨events, hlog, hnothing, -⟩ := h.log
  rw [hlog, gathered_append, gathered_eq_nil hnothing, List.append_nil]

theorem pledged {α : Type} {f : Operation → Except StoreError Reply → List α} (h : Beside w w' u) :
    pledged f w'.calls w'.log u = pledged f w.calls w.log u := by
  unfold ObjectStore.pledged
  rw [h.call, h.gathered]

theorem tentative (h : Beside w w' u) :
    tentative w'.calls w'.log u = tentative w.calls w.log u := by
  rw [tentative_eq_pledged, tentative_eq_pledged]
  exact h.pledged

theorem transcript (h : Beside w w' u) : transcript u w'.log = transcript u w.log := by
  rw [transcript_eq_gathered, transcript_eq_gathered]
  exact h.gathered

theorem accessed (h : Beside w w' u) {access : Access} (hin : .accessed u access ∈ w.log) :
    .accessed u access ∈ w'.log := by
  obtain ⟨events, hlog, -⟩ := h.log
  rw [hlog]
  exact List.mem_append_left events hin

theorem mem_commits (h : Beside w w' u) : u ∈ commits w'.log ↔ u ∈ commits w.log := by
  obtain ⟨events, hlog, -, hno⟩ := h.log
  rw [hlog, commits_append, List.mem_append]
  exact ⟨fun hin => hin.resolve_right hno, Or.inl⟩

theorem written (h : Beside w w' u) {name : Name}
    (hwritten : ((w'.store.backend.writes u).names.get? name).isSome = true) :
    ((w.store.backend.writes u).names.get? name).isSome = true := by
  rcases h.writes with ⟨hsame, -⟩ | ⟨-, hgone⟩
  · rwa [Memory.writes_congr hsame] at hwritten
  · unfold Memory.writes at hwritten
    rw [hgone] at hwritten
    exact absurd hwritten (by simp [WriteSet.empty])

/-- Whoever is open after the action was left as it was. -/
theorem find_of_isOpen (h : Beside w w' u) (hopen : w'.store.register.isOpen u = true) :
    w'.store.register.find u = w.store.register.find u := by
  refine h.status.resolve_right ?_
  rintro ⟨-, -, haborted⟩
  rw [Register.isOpen_of_aborted haborted] at hopen
  exact absurd hopen (by simp)

theorem status_of_active
    (h : w'.store.register.find u = w.store.register.find u ∨
      w.store.register.stateOf u = .active ∧ w'.store.register.stateOf u = .aborted) :
    w'.store.register.find u = w.store.register.find u ∨
      w.store.register.isOpen u = true ∧
        (w.store.register.stateOf u = .active ∨ w.isParticipating u = false) ∧
          w'.store.register.stateOf u = .aborted :=
  h.imp_right fun ⟨hactive, haborted⟩ =>
    ⟨Register.isOpen_iff.mpr (Or.inl hactive), Or.inl hactive, haborted⟩

end Beside

/-- What a transaction does itself is beside all others. -/
theorem OwnMove.beside (h : w.OwnMove t w') (hu : t ≠ u) : Beside w w' u := by
  cases h with
  | begins =>
      exact
        { status := Or.inl (Register.find_start_of_ne hu _ _)
          call := rfl
          log := ⟨[], (List.append_nil _).symm, fun _ _ => List.not_mem_nil, List.not_mem_nil⟩
          writes := Or.inl ⟨rfl, rfl⟩ }
  | starts _ _ hwounded =>
      exact
        { status := Beside.status_of_active (hwounded.status u)
          call := by rw [FinMap.get?_insert, if_neg hu]
          log := ⟨[], (List.append_nil _).symm, fun _ _ => List.not_mem_nil, List.not_mem_nil⟩
          writes := Or.inl ⟨rfl, rfl⟩ }
  | participates =>
      exact
        { status := Or.inl rfl
          call := by rw [FinMap.get?_insert, if_neg hu]
          log := ⟨[], (List.append_nil _).symm, fun _ _ => List.not_mem_nil, List.not_mem_nil⟩
          writes := Or.inl ⟨rfl, rfl⟩ }
  | operation _ hstep =>
      obtain ⟨hstatus, hwrites⟩ := hstep.others hu
      exact
        { status := Beside.status_of_active hstatus
          call := by rw [FinMap.get?_change, if_neg hu]
          log := ⟨_, rfl, fun _ _ => answered_not_mem_ofStep hu _ _ _ _ _, by simp⟩
          writes := Or.inl hwrites }
  | participation _ hstep =>
      obtain ⟨hstatus, hwrites⟩ := hstep.others hu
      exact
        { status := Beside.status_of_active hstatus
          call := by rw [FinMap.get?_change, if_neg hu]
          log := ⟨_, rfl, fun _ _ => answered_not_mem_ofParticipantStep _ _ _ _ _ _ _,
            fun hin => hu (mem_commits_ofParticipantStep hin).symm⟩
          writes := Or.inl hwrites }

/-- **Whatever happens is beside a transaction, or the transaction does it itself.** -/
theorem Move.beside_or_own (h : w.Move w') (u : TxnId) : Beside w w' u ∨ w.OwnMove u w' := by
  have hnothing : ∃ events, w.log = w.log ++ events ∧
      (∀ op result, .answered u op result ∉ events) ∧ u ∉ commits events :=
    ⟨[], (List.append_nil _).symm, fun _ _ => List.not_mem_nil, List.not_mem_nil⟩
  cases h with
  | rest => exact Or.inl ⟨Or.inl rfl, rfl, hnothing, Or.inl ⟨rfl, rfl⟩⟩
  | aside => exact Or.inl ⟨Or.inl rfl, rfl, hnothing, Or.inl ⟨rfl, rfl⟩⟩
  | @aborts t register hself hother hknown =>
      refine Or.inl ⟨?_, rfl, hnothing, Or.inl ⟨rfl, rfl⟩⟩
      by_cases hu : t = u
      · subst hu
        rcases hself with hsame | ⟨hopen, hwhen, cause, haborted⟩
        · exact Or.inl hsame
        · refine Or.inr ⟨hopen, hwhen, ?_⟩
          rw [Register.stateOf, haborted]
          rfl
      · exact Or.inl (hother u hu)
  | @own t _ hown =>
      by_cases hu : t = u
      · subst hu
        exact Or.inr hown
      · exact Or.inl (hown.beside hu)
  | shutsDown =>
      refine Or.inl ⟨Or.inl rfl, rfl, hnothing, Or.inr ?_⟩
      simp only [Backend.perform, Memory.perform_shutdown]
      exact ⟨rfl, rfl⟩

/-! ### What commits -/

/-- The backend has carried the writes of a transaction out. -/
structure Commits (w : LockingTraffic Memory) (t : TxnId) (w' : LockingTraffic Memory) : Prop where
  before : ∃ call called, w.calls.get? t = some (.participation call (.backend called)) ∧
    called ≠ .abort
  after : ∃ call reply, w'.calls.get? t = some (.participation call (.committed reply))
  names : ∀ name, w'.store.backend.names.get? name = w.store.backend.binding? t name
  objects : ∀ oid, w'.store.backend.objects.get? oid = w.store.backend.object? t oid
  isOpen : w.store.backend.isShutDown = false
  log : w'.log = w.log ++ [.committed t]

/-- A step of a participant call commits, or it leaves the committed names. -/
theorem commits_or_names {call : ParticipantCall} {stage stage' : ParticipantStage}
    {store : LockingStore Memory} (hcall : w.calls.get? t = some (.participation call stage))
    (hstep : ParticipantMove w.store t stage stage' store) :
    store.backend.names = w.store.backend.names ∧
        commits (Event.ofParticipantStep t call stage stage') = [] ∨
      Commits w t
        { store
          calls := w.calls.change t (Call.ofParticipantStage call stage')
          log := w.log ++ Event.ofParticipantStep t call stage stage' } := by
  cases hstep with
  | calls hcalled =>
      rename_i called backend
      have hends := called_of_callBackend hcalled
      cases hends with
      | @commits _ reply _ hopen hnot hnames _ _ _ hobjects =>
          refine Or.inr ⟨⟨call, called, hcall, hnot⟩, ⟨call, reply, ?_⟩, hnames, hobjects, hopen, rfl⟩
          rw [FinMap.get?_change_self]
          rfl
      | refused => exact Or.inl ⟨rfl, rfl⟩
      | prepares => exact Or.inl ⟨rfl, rfl⟩
      | loses => exact Or.inl ⟨rfl, rfl⟩
      | aborts => exact Or.inl ⟨rfl, rfl⟩
  | releasesNames => rename_i result; cases result <;> exact Or.inl ⟨rfl, rfl⟩
  | _ => exact Or.inl ⟨rfl, rfl⟩

/-- **Nothing changes the committed names but a commit.** -/
theorem Move.commits_or_names (h : w.Move w') :
    w'.store.backend.names = w.store.backend.names ∧ commits w'.log = commits w.log ∨
      ∃ t, Commits w t w' := by
  cases h with
  | rest => exact Or.inl ⟨rfl, rfl⟩
  | aside => exact Or.inl ⟨rfl, rfl⟩
  | aborts => exact Or.inl ⟨rfl, rfl⟩
  | shutsDown =>
      simp only [Backend.perform, Memory.perform_shutdown]
      exact Or.inl ⟨rfl, trivial⟩
  | @own t _ hown =>
      cases hown with
      | begins => exact Or.inl ⟨rfl, rfl⟩
      | starts => exact Or.inl ⟨rfl, rfl⟩
      | participates => exact Or.inl ⟨rfl, rfl⟩
      | operation _ hstep =>
          refine Or.inl ⟨?_, by simp [commits_append]⟩
          cases hstep with
          | acts hact => exact (acted_of_act hact).names
          | _ => rfl
      | participation hcall hstep =>
          rcases Traffic.commits_or_names hcall hstep with ⟨hnames, hnone⟩ | hcommits
          · exact Or.inl ⟨hnames, by rw [commits_append, hnone, List.append_nil]⟩
          · exact Or.inr ⟨t, hcommits⟩

end Traffic

end ObjectStore
