/-
What is committed is what the committed transactions have written, and all of it.

The buffered writes of a transaction that may yet commit are those of its draft.  So a commit adds
the ledger of its transaction to what is committed, and nothing else changes what is committed:
not writes that are buffered and never committed, and not answers that a committed transaction is
given afterwards, which are refusals.  By induction over a run the committed objects and names are
what the ledgers of the committed transactions make of nothing, one after another in the order of
the commits.

A transaction that has been wounded does not commit, but an operation of it that has been allowed to
go on still sees its writes.
-/
import ObjectStore.Proofs.Store.History
import ObjectStore.Proofs.Store.Ledger
import ObjectStore.Proofs.Store.Scan

namespace ObjectStore

/-- What committed transactions have written, in the order in which they were committed. -/
def settled (log : List Event) : List Write := (commits log).flatMap (ledger · log)

namespace Traffic

variable {w w' : LockingTraffic Memory} {t : TxnId}

/-! ### The writes of one transaction -/

/-- A transaction whose buffered writes count: it may yet commit, or its operation is about to call
the backend. -/
def Buffering (w : LockingTraffic Memory) (t : TxnId) : Prop :=
  Live w t ∨ w.store.backend.isShutDown = false ∧
    ∃ op plan, w.calls.get? t = some (.operation op (.act plan))

/-- What is true of the writes of a transaction. -/
structure Accounted (w : LockingTraffic Memory) (t : TxnId) : Prop where
  serves : ∀ op stage, w.calls.get? t = some (.operation op stage) → stage.Serves op
  /-- What a committed transaction is answered tells of no write. -/
  spent : t ∈ commits w.log →
    ∀ op stage, w.calls.get? t = some (.operation op stage) → stage.writes op = []
  unknown : w.store.register.isKnown t = false →
    w.store.backend.writes t = .empty ∧ draft w.calls w.log t = []
  buffered : Buffering w t →
    (w.store.backend.writes t).unprepared = WriteSet.empty.recordAll (draft w.calls w.log t)

theorem Live.LiveStep.writes {m m' : Memory} {stage stage' : Stage}
    (h : Live.LiveStep t m stage stage' m') (hno : ∀ plan, stage ≠ .act plan) (op : Operation) :
    m' = m ∧ stage'.writes op = stage.writes op := by
  cases h with
  | acts => exact absurd rfl (hno _)
  | _ => exact ⟨rfl, rfl⟩

namespace Accounted

theorem new (shards : Nat) (t : TxnId) : Accounted (Traffic.new shards Memory.empty) t where
  serves := fun _ _ h => absurd h (by simp [Traffic.new])
  spent := fun h => absurd h List.not_mem_nil
  unknown := fun _ => ⟨rfl, rfl⟩
  buffered := fun _ => rfl

theorem beside (h : Accounted w t) (hafter : w.store.register.After w'.store.register)
    (hbeside : Beside w w' t) : Accounted w' t where
  serves := by
    intro op stage hcall
    rw [hbeside.call] at hcall
    exact h.serves op stage hcall
  spent := by
    intro hin op stage hcall
    rw [hbeside.call] at hcall
    exact h.spent (hbeside.mem_commits.mp hin) op stage hcall
  unknown := by
    intro hnew
    have hwas : w.store.register.isKnown t = false := by
      by_contra hknown
      rw [hafter.known t (Bool.of_not_eq_false hknown)] at hnew
      exact absurd hnew (by simp)
    obtain ⟨hwrites, hdraft⟩ := h.unknown hwas
    refine ⟨?_, hbeside.pledged.trans hdraft⟩
    rcases hbeside.writes with ⟨hsame, -⟩ | ⟨-, hgone⟩
    · exact (Memory.writes_congr hsame).trans hwrites
    · exact Memory.writes_of_pending_eq_none hgone
  buffered := by
    rintro (hlive | ⟨hserved, op, plan, hcall⟩)
    · rw [Live.writes_of_beside hbeside hlive, draft, hbeside.pledged]
      exact h.buffered (Or.inl (Live.of_beside hbeside hlive))
    · rw [hbeside.call] at hcall
      rcases hbeside.writes with ⟨hsame, hshut⟩ | ⟨hshut, -⟩
      · rw [Memory.writes_congr hsame, draft, hbeside.pledged]
        exact h.buffered (Or.inr ⟨hshut.symm.trans hserved, op, plan, hcall⟩)
      · exact absurd (hserved.symm.trans hshut) (by simp)

theorem of_operation (h : Accounted w t) {op : Operation} {stage : Stage}
    (hcall : w.calls.get? t = some (.operation op stage)) (hlive : Live w t) :
    (w.store.backend.writes t).unprepared =
      WriteSet.empty.recordAll (ledger t w.log ++ stage.writes op) := by
  rw [h.buffered (Or.inl hlive), draft, pledged_of_operation hcall]
  rfl

theorem buffered_operation (h : Accounted w t) (hsound : Sound w) {op : Operation}
    {stage stage' : Stage} {store : LockingStore Memory}
    (hcall : w.calls.get? t = some (.operation op stage))
    (hstep : OperationStep w.store t stage stage' store)
    (hlive : Live
      { store
        calls := w.calls.change t (Call.ofStage op stage')
        log := w.log ++ Event.ofStep t op stage stage' } t) :
    (store.backend.writes t).unprepared =
      WriteSet.empty.recordAll (ledger t w.log ++ stage'.writes op) := by
  obtain ⟨hwas, hlivestep⟩ := hlive.operation hsound hcall hstep
  have hold := h.of_operation hcall hwas
  have hquiet : (∀ plan, stage ≠ .act plan) → (store.backend.writes t).unprepared =
      WriteSet.empty.recordAll (ledger t w.log ++ stage'.writes op) := by
    intro hno
    obtain ⟨hbackend, hwrites⟩ := hlivestep.writes hno op
    rw [hbackend, hwrites]
    exact hold
  cases hstep with
  | @acts plan _ backend hact =>
      obtain ⟨writes, hbuffers, hdraft⟩ := buffers_of_act (h.serves op _ hcall)
        ((hsound.traced t).fits op _ hcall).1 hwas.isServed hact
      calc (backend.writes t).unprepared
          = (w.store.backend.writes t).unprepared.recordAll writes := by
            rw [hbuffers.writes, WriteSet.unprepared_recordAll]
        _ = WriteSet.empty.recordAll (ledger t w.log ++ stage'.writes op) := by
            rw [hold, hdraft, ← WriteSet.recordAll_append, List.append_assoc]
  | _ => exact hquiet (by simp)

/-- Whoever is allowed to go on is active, and has added nothing by that. -/
theorem buffered_allowed (h : Accounted w t) {op : Operation} {stage : Stage} {plan : Plan}
    {store : LockingStore Memory} (hcall : w.calls.get? t = some (.operation op stage))
    (hstep : OperationStep w.store t stage (.act plan) store)
    (hserved : store.backend.isShutDown = false) :
    (store.backend.writes t).unprepared =
      WriteSet.empty.recordAll (ledger t w.log ++ (Stage.act plan).writes op) := by
  obtain ⟨⟨access, hreport⟩, hactive, hbackend⟩ := hstep.of_isAllowed
  have hplan : stage = .report access plan := by
    obtain rfl := hreport
    cases hstep with
    | reportsObject _ hturn => cases hturn; rfl
    | reportsName _ hturn => cases hturn; rfl
  subst hplan
  rw [hbackend] at hserved ⊢
  have hlive : Live w t :=
    ⟨Register.isOpen_iff.mpr (Or.inl hactive), hserved, by rw [hcall]; rfl⟩
  have hold := h.of_operation hcall hlive
  exact hold

theorem of_quiet (hknown : w.store.register.isKnown t = true)
    (hcall : ∀ op stage, w.calls.get? t ≠ some (.operation op stage))
    (hlive : Live w t → (w.store.backend.writes t).unprepared =
      WriteSet.empty.recordAll (draft w.calls w.log t)) : Accounted w t where
  serves := fun op stage hc => absurd hc (hcall op stage)
  spent := fun _ op stage hc => absurd hc (hcall op stage)
  unknown := fun hnew => absurd (hknown.symm.trans hnew) (by simp)
  buffered := by
    rintro (hwas | ⟨-, op, plan, hc⟩)
    · exact hlive hwas
    · exact absurd hc (hcall op _)

theorem operation (h : Accounted w t) (hsound : Sound w) {op : Operation} {stage stage' : Stage}
    {store : LockingStore Memory} (hcall : w.calls.get? t = some (.operation op stage))
    (hstep : OperationStep w.store t stage stage' store) :
    Accounted
      { store
        calls := w.calls.change t (Call.ofStage op stage')
        log := w.log ++ Event.ofStep t op stage stage' } t := by
  have hknown := (after_of_operationStep hstep).known t (hsound.retains.orderly.called t _ hcall)
  have hleft : (w.calls.change t (Call.ofStage op stage')).get? t = Call.ofStage op stage' :=
    FinMap.get?_change_self _ _ _
  have hserves := h.serves op stage hcall
  have hreported : ∀ {state access plan turn}, plan.Serves op →
      Reported t state access plan turn stage' → stage'.Serves op := by
    intro state access plan turn hplan hturn
    cases hturn with
    | allowed => exact hplan
    | waiting => exact hplan
    | timedOut => exact trivial
    | late => exact trivial
  refine ⟨?_, ?_, fun hnew => absurd (hknown.symm.trans hnew) (by simp), ?_⟩
  · intro op' stage'' hcall'
    obtain ⟨rfl, rfl⟩ := Call.ofStage_eq (hleft.symm.trans hcall')
    cases hstep with
    | reportsObject _ hturn => exact hreported hserves hturn
    | reportsName _ hturn => exact hreported hserves hturn
    | wakes => exact hserves
    | acts hact => exact (acted_of_act hact).serves hserves
    | fails => exact trivial
  · intro hin op' stage'' hcall'
    rw [commits_append, commits_ofStep, List.append_nil] at hin
    obtain ⟨e, rfl, -⟩ := hsound.failing_of_mem_commits hin hcall
    cases hstep
    cases hleft.symm.trans hcall'
  · rw [draft, pledged_step]
    rintro (hlive | ⟨hserved, op', plan, hcall'⟩)
    · exact h.buffered_operation hsound hcall hstep hlive
    · obtain ⟨rfl, rfl⟩ := Call.ofStage_eq (hleft.symm.trans hcall')
      exact h.buffered_allowed hcall hstep hserved

/-- Whatever a transaction does itself, its account is right afterwards. -/
theorem own (h : Accounted w t) (hsound : Sound w) (hown : w.OwnMove t w')
    (hbegun : ∀ op stage, w.calls.get? t = none → w'.calls.get? t = some (.operation op stage) →
      stage.Begins op) : Accounted w' t := by
  have hafter := after_of_ownMove hown
  cases hown with
  | begins hnew =>
      obtain ⟨hwrites, hdraft⟩ := h.unknown hnew
      refine ⟨h.serves, h.spent, fun _ => ⟨hwrites, hdraft⟩, fun _ => ?_⟩
      show (w.store.backend.writes t).unprepared = WriteSet.empty.recordAll (draft w.calls w.log t)
      rw [hwrites, hdraft]
      rfl
  | @starts op stage register hfree hknown hwounded hstage =>
      have hnothing : Call.gathered Operation.writes (some (.operation op stage)) = [] :=
        (hbegun op stage hfree (FinMap.get?_insert_self _ _ _)).writes
      refine ⟨?_, ?_, fun hnew => absurd ((hafter.known t hknown).symm.trans hnew) (by simp), ?_⟩
      · intro op' stage' hcall
        rw [FinMap.get?_insert_self] at hcall
        cases hcall
        rcases hstage with ⟨rfl, -⟩ | ⟨e, rfl, -⟩
        · exact Stage.serves_firstStage op
        · exact trivial
      · intro _ op' stage' hcall
        rw [FinMap.get?_insert_self] at hcall
        cases hcall
        exact hnothing
      · intro hbuffering
        have hopen : register.isOpen t = true ∧ w.store.backend.isShutDown = false := by
          rcases hbuffering with hlive | ⟨hserved, op', plan, hcall⟩
          · exact ⟨hlive.isOpen, hlive.isServed⟩
          · rw [FinMap.get?_insert_self] at hcall
            cases hcall
            rcases hstage with ⟨-, hactive⟩ | ⟨e, he, -⟩
            · exact ⟨Register.isOpen_iff.mpr (Or.inl hactive), hserved⟩
            · cases he
        rw [draft, pledged_insert hfree hnothing]
        exact h.buffered
          (Or.inl (Live.of_free hfree (hwounded.isOpen_of_isOpen hopen.1) hopen.2))
  | participates hfree hknown =>
      refine of_quiet hknown (fun op stage hc => ?_) fun hlive => ?_
      · rw [FinMap.get?_insert_self] at hc
        cases hc
      · rw [draft, pledged_insert hfree rfl]
        exact h.buffered (Or.inl (Live.of_free hfree hlive.isOpen hlive.isServed))
  | operation hcall hstep => exact h.operation hsound hcall hstep
  | @participation call stage stage' store hcall hstep =>
      refine of_quiet (hafter.known t (hsound.retains.orderly.called t _ hcall)) ?_ ?_
      · intro op stage'' hc
        rw [FinMap.get?_change_self] at hc
        exact Call.ofParticipantStage_ne_operation call stage' op stage'' hc
      · intro hlive
        obtain ⟨hwas, hbackend⟩ := hlive.participation_backend hsound hcall hstep
        rw [draft, pledged_participantStep hcall]
        refine Eq.trans ?_ (h.buffered (Or.inl hwas))
        rcases hbackend with hsame | hprepared
        · rw [hsame]
        · rw [hprepared, Memory.writes_write, if_pos rfl]
          rfl

/-- **Every action leaves the account of every transaction right.** -/
theorem perform (h : Accounted w t) (hsound : Sound w) (a : StoreAction) :
    Accounted (w.perform a) t := by
  rcases (move_perform w a).beside_or_own t with hbeside | hown
  · exact h.beside (after_of_move (move_perform w a)) hbeside
  · exact h.own hsound hown fun _ _ hfree hcall => begins_of_free hfree hcall

theorem run (shards : Nat) (actions : List StoreAction) (t : TxnId) :
    Accounted ((Traffic.new shards Memory.empty).run actions) t := by
  have hboth : Sound ((Traffic.new shards Memory.empty).run actions) ∧
      Accounted ((Traffic.new shards Memory.empty).run actions) t :=
    run_induction (P := fun w => Sound w ∧ Accounted w t) ⟨.new shards, .new shards t⟩
      (fun w a h => ⟨h.1.move (move_perform w a), h.2.perform h.1 a⟩) actions
  exact hboth.2

end Accounted

/-! ### All that is committed -/

/-- A committed transaction writes nothing more. -/
theorem Sound.ledger_of_mem_commits (h : Sound w) (haccounted : Accounted w t) (hmove : w.Move w')
    (hin : t ∈ commits w.log) : ledger t w'.log = ledger t w.log := by
  rcases hmove.beside_or_own t with hbeside | hown
  · exact hbeside.gathered
  · cases hown with
    | begins => rfl
    | starts => rfl
    | participates => rfl
    | @operation op stage stage' store hcall hstep =>
        have hnothing := haccounted.spent hin op stage hcall
        obtain ⟨e, rfl, -⟩ := h.failing_of_mem_commits hin hcall
        cases hstep
        have hanswer : ledger t (Event.ofStep t op (.failing e) (.ended (.error e))) =
            op.writes (.error e) := by
          simp [Event.ofStep, ledger, gathered, Event.gathered]
        rw [ledger_append, hanswer, show op.writes (.error e) = [] from hnothing, List.append_nil]
    | @participation call stage stage' _ hcall hstep =>
        have hnothing : ledger t (Event.ofParticipantStep t call stage stage') = [] :=
          gathered_ofParticipantStep ..
        rw [ledger_append, hnothing, List.append_nil]

/-- Nothing changes the committed objects but a commit. -/
theorem Move.objects_of_commits_eq (hmove : w.Move w') (hsame : commits w'.log = commits w.log) :
    w'.store.backend.objects = w.store.backend.objects := by
  cases hmove with
  | rest => rfl
  | aside => rfl
  | aborts => rfl
  | shutsDown =>
      simp only [Backend.perform, Memory.perform_shutdown]
      rfl
  | own hown =>
      cases hown with
      | begins => rfl
      | starts => rfl
      | participates => rfl
      | operation _ hstep =>
          cases hstep with
          | acts hact => exact (exists_buffers_of_act hact).choose_spec.objects
          | _ => rfl
      | participation hcall hstep =>
          cases hstep with
          | calls hcalled =>
              cases called_of_callBackend hcalled with
              | commits => simp [commits, Event.ofParticipantStep, Event.committer?] at hsame
              | _ => rfl
          | _ => rfl

/-- The committed objects and names are what the committed transactions have written. -/
structure Settled (w : LockingTraffic Memory) : Prop where
  objects : ∀ oid, w.store.backend.objects.get? oid =
    Write.objectAfter oid none (settled w.log)
  names : ∀ name, w.store.backend.names.get? name =
    Write.bindingAfter name none (settled w.log)

namespace Settled

theorem new (shards : Nat) : Settled (Traffic.new shards Memory.empty) := ⟨fun _ => rfl, fun _ => rfl⟩

/-- A transaction whose writes count sees what the writes of its draft make of what is committed. -/
theorem object?_eq (h : Settled w) (haccounted : Accounted w t) (hbuffering : Buffering w t)
    (oid : ObjectId) : w.store.backend.object? t oid =
      Write.objectAfter oid none (settled w.log ++ draft w.calls w.log t) := by
  rw [Write.objectAfter_append, ← h.objects oid]
  show FinMap.under? _ (WriteSet.unprepared _).objects oid = _
  rw [haccounted.buffered hbuffering]
  exact WriteSet.object?_recordAll _ oid _ .empty

theorem binding?_eq (h : Settled w) (haccounted : Accounted w t) (hbuffering : Buffering w t)
    (name : Name) : w.store.backend.binding? t name =
      Write.bindingAfter name none (settled w.log ++ draft w.calls w.log t) := by
  rw [Write.bindingAfter_append, ← h.names name]
  show FinMap.under? _ (WriteSet.unprepared _).names name = _
  rw [haccounted.buffered hbuffering]
  exact WriteSet.binding?_recordAll _ name _ .empty

/-- **Every action keeps what is committed settled.** -/
theorem move (h : Settled w) (hsound : Sound w) (haccounted : ∀ t, Accounted w t)
    (hmove : w.Move w') : Settled w' := by
  have hfrozen : (commits w.log).flatMap (ledger · w'.log) = settled w.log :=
    List.flatMap_congr fun t hin => hsound.ledger_of_mem_commits (haccounted t) hmove hin
  rcases hmove.commits_or_names with ⟨hnames, hcommits⟩ | ⟨t, hcommits⟩
  · have hsame : settled w'.log = settled w.log := by
      unfold settled
      rw [hcommits, hfrozen]
      rfl
    refine ⟨fun oid => ?_, fun name => ?_⟩
    · rw [hmove.objects_of_commits_eq hcommits, hsame]
      exact h.objects oid
    · rw [hnames, hsame]
      exact h.names name
  · obtain ⟨call, called, hcall, -⟩ := hcommits.before
    have hlist : commits w'.log = commits w.log ++ [t] := by
      rw [hcommits.log, commits_append]
      rfl
    have hown : ledger t w'.log = ledger t w.log := by
      rw [hcommits.log, ledger_append]
      exact List.append_nil _
    have hmore : settled w'.log = settled w.log ++ ledger t w.log := by
      unfold settled
      rw [hlist, List.flatMap_append, hfrozen, List.flatMap_singleton, hown]
      rfl
    have hbuffering : Buffering w t := Or.inl (hsound.live_of_commits hcommits)
    have hdraft : draft w.calls w.log t = ledger t w.log := pledged_of_participation hcall
    refine ⟨fun oid => ?_, fun name => ?_⟩
    · rw [hcommits.objects, hmore, ← hdraft]
      exact h.object?_eq (haccounted t) hbuffering oid
    · rw [hcommits.names, hmore, ← hdraft]
      exact h.binding?_eq (haccounted t) hbuffering name

theorem run (shards : Nat) (actions : List StoreAction) :
    Settled ((Traffic.new shards Memory.empty).run actions) := by
  induction actions using List.reverseRecOn with
  | nil => exact new shards
  | append_singleton actions a ih =>
      rw [run_concat]
      exact ih.move (Sound.run shards actions) (Accounted.run shards actions) (move_perform _ a)

end Settled

/--
**Atomic commit.**  After every run the committed objects and names are what the committed
transactions have written, one after another in the order of their commits.  These are the
transactions whose status says so, each of them once; during a commit the status follows the
backend.  A transaction that is open and between two calls has buffered what its operations have
answered that they wrote.
-/
theorem atomic (shards : Nat) (actions : List StoreAction) :
    let w := (new shards Memory.empty).run actions
    (∀ oid, w.store.backend.objects.get? oid = Write.objectAfter oid none (settled w.log)) ∧
      (∀ name, w.store.backend.names.get? name = Write.bindingAfter name none (settled w.log)) ∧
        (commits w.log).Nodup ∧
          (∀ t, t ∈ commits w.log ↔ w.store.register.stateOf t = .committed ∨
            ∃ call reply, w.calls.get? t = some (.participation call (.committed reply))) ∧
            ∀ t, w.store.register.isOpen t = true → w.store.backend.isShutDown = false →
              w.calls.get? t = none → (w.store.backend.writes t).unprepared =
                WriteSet.empty.recordAll (ledger t w.log) := by
  intro w
  have hsound : Sound w := Sound.run shards actions
  have hsettled : Settled w := Settled.run shards actions
  refine ⟨hsettled.objects, hsettled.names, (Explained.run shards actions).nodup, fun t => ?_,
    fun t hopen hserved hfree => ?_⟩
  · have hconsistent := hsound.consistent t
    refine ⟨hconsistent.committed, ?_⟩
    rintro (hcommitted | ⟨call, reply, hcall⟩)
    · exact hconsistent.logged hcommitted
    · exact (hconsistent.following call reply hcall).1
  · have hwrites := (Accounted.run shards actions t).buffered
      (Or.inl (Live.of_free hfree hopen hserved))
    rwa [draft, pledged_of_free hfree] at hwrites

end Traffic

end ObjectStore
