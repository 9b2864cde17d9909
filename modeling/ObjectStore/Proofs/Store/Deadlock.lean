/-
No transactions wait for each other in a circle.

A parked call listens to one entry and so waits for the owner of that entry.  Either the owner
precedes the one that waits, or it refused to give up.  Whoever refuses is prepared or committed, and
from then on begins no operation that comes as far as a report, even if it is aborted later: it has
retired.  So every wait leads up the ranks, but for waits for somebody who never waits again, and no
chain of waits comes back to where it began.  Ranks are the same in both lock tables, which is why
the two may be taken together.

`Ascends` is the invariant for one table, `Traffic.Ascending` that for a store.
-/
import Mathlib.Logic.Relation
import ObjectStore.Proofs.Store.Retention
import ObjectStore.Proofs.Transaction.Age

namespace ObjectStore

variable {β : Type}

/-! ### Statuses over an action -/

section Later

variable [Backend β]

theorem later_of_operationStep {s s' : LockingStore β} {t : TxnId} {stage stage' : Stage}
    (h : OperationStep s t stage stage' s') : s.register.Later s'.register := by
  cases h with
  | reportsObject hturn => exact (Register.wounded_turn hturn).later
  | reportsName hturn => exact (Register.wounded_turn hturn).later
  | wakes => exact .refl _
  | acts => exact .refl _
  | fails => exact Register.later_noteFailure _ _ _

omit [Backend β] in
theorem later_enter (s : LockingStore β) (t : TxnId) (call : ParticipantCall) :
    s.register.Later (s.enter t call).2.register := by
  cases call with
  | prepare => exact Register.later_update (Txn.later_beginPrepare s.now _)
  | commit => exact .refl _
  | prepareAndCommit => exact Register.later_update (Txn.later_beginPrepare s.now _)
  | abort => exact Register.later_update (Txn.later_beginParticipantAbort _)

theorem later_participantStep (s : LockingStore β) (t : TxnId) (stage : ParticipantStage) :
    s.register.Later (s.participantStep t stage).2.register := by
  cases stage with
  | enter call =>
      have henter := later_enter s t call
      rcases hcall : s.enter t call with ⟨_ | _, s'⟩
      · rw [hcall] at henter
        simpa only [Store.participantStep, hcall] using henter
      · rw [hcall] at henter
        simpa only [Store.participantStep, hcall] using henter
  | backend call =>
      obtain ⟨backend, hbackend⟩ := s.callBackend_backend t call
      simp only [Store.participantStep, hbackend]
      exact .refl _
  | committed reply =>
      exact Register.later_update (f := fun txn => ((), txn.completeCommit)) (Txn.later_completeCommit _)
  | releaseObjects result => exact .refl _
  | releaseNames result => exact .refl _
  | failing e => exact Register.later_noteFailure _ _ _
  | ended result => exact .refl _

namespace Traffic

/-- **No action ages a transaction or revives one.** -/
theorem later_perform (w : LockingTraffic β) (a : StoreAction) :
    w.store.register.Later (w.perform a).store.register := by
  unfold perform
  cases a with
  | begin t seniority lifetime =>
      simp only
      split
      · exact .refl _
      · rename_i hnew
        exact Register.later_start (Bool.of_not_eq_true hnew) _ _
  | operate t op =>
      simp only
      split
      · obtain ⟨stage, register, hstart, hwounded, -⟩ := start_cases w.store t op
        rw [hstart]
        exact hwounded.later
      · exact .refl _
  | participate t call =>
      simp only
      split <;> exact .refl _
  | proceed t =>
      simp only
      split
      · exact .refl _
      · split
        · rename_i hcan
          exact later_of_operationStep (operationStep_step w.store t hcan)
        · exact .refl _
      · split
        · exact later_participantStep w.store t _
        · exact .refl _
  | cancel t cause =>
      simp only
      split
      · exact Register.later_update (f := (·.abort cause)) (Txn.later_abort _ cause)
      · exact .refl _
  | wound t reason =>
      simp only
      split
      · exact Register.later_update (f := (·.wound reason)) (Txn.later_wound _ reason)
      · exact .refl _
  | describe t subject text => cases subject <;> exact .refl _
  | tick n => exact .refl _
  | shutdown =>
      unfold Store.shutdown
      simp only
      split <;> exact .refl _

end Traffic

end Later

/-! ### Whoever never waits again -/

/-- The transaction is no longer active, and if an operation is under way it is about to fail. -/
structure Retired (register : Register) (calls : FinMap TxnId Call) (t : TxnId) : Prop where
  known : register.isKnown t = true
  ended : register.stateOf t ≠ .active
  failing : ∀ op stage, calls.get? t = some (.operation op stage) → ∃ e, stage = .failing e

/-- Nothing that others do brings a transaction back. -/
theorem Retired.mono {register register' : Register} {calls calls' : FinMap TxnId Call} {t : TxnId}
    (h : Retired register calls t) (hlater : register.Later register')
    (hcall : calls'.get? t = calls.get? t) : Retired register' calls' t where
  known := hlater.known t h.known
  ended := hlater.ne_active h.known h.ended
  failing := by
    rw [hcall]
    exact h.failing

namespace Traffic

variable [Backend β] {w w' : LockingTraffic β} {t u : TxnId}

/-- The call of a retired transaction goes nowhere but to its end. -/
theorem OwnMove.retired (hown : w.OwnMove t w')
    (hlater : w.store.register.Later w'.store.register)
    (h : Retired w.store.register w.calls t) : Retired w'.store.register w'.calls t where
  known := hlater.known t h.known
  ended := hlater.ne_active h.known h.ended
  failing := by
    intro op' stage'' hcall'
    cases hown with
    | begins => exact h.failing op' stage'' hcall'
    | starts _ _ hwounded hstage =>
        rw [FinMap.get?_insert_self] at hcall'
        cases hcall'
        rcases hstage with ⟨-, hactive⟩ | ⟨e, he, -⟩
        · exact absurd hactive (hlater.ne_active h.known h.ended)
        · exact ⟨e, he⟩
    | participates =>
        rw [FinMap.get?_insert_self] at hcall'
        cases hcall'
    | @operation op stage stage' _ hcall hstep =>
        rw [FinMap.get?_change_self] at hcall'
        obtain ⟨e, rfl⟩ := h.failing op stage hcall
        cases hstep
        cases hcall'
    | @participation call stage stage' _ hcall hstep =>
        rw [FinMap.get?_change_self] at hcall'
        exact absurd hcall' (Call.ofParticipantStage_ne_operation call stage' op' stage'')

theorem OwnMove.call_of_ne (hown : w.OwnMove t w') (hu : t ≠ u) :
    w'.calls.get? u = w.calls.get? u := by
  cases hown with
  | begins => rfl
  | starts => rw [FinMap.get?_insert, if_neg hu]
  | participates => rw [FinMap.get?_insert, if_neg hu]
  | operation => rw [FinMap.get?_change, if_neg hu]
  | participation => rw [FinMap.get?_change, if_neg hu]

/-- **Whoever has retired stays retired.** -/
theorem Move.retired (hmove : w.Move w') (hlater : w.store.register.Later w'.store.register)
    (h : Retired w.store.register w.calls u) : Retired w'.store.register w'.calls u := by
  cases hmove with
  | rest => exact h
  | aside => exact h
  | aborts => exact h.mono hlater rfl
  | @own t _ hown =>
      by_cases hu : t = u
      · subst hu
        exact hown.retired hlater h
      · exact h.mono hlater (hown.call_of_ne hu)
  | shutsDown => exact h

theorem firm_of_noteFailure {r : Register} {t : TxnId} {e : StoreError}
    (hfirm : ((r.noteFailure t e).find u).IsFirm) : (r.find u).IsFirm := by
  by_cases hu : t = u
  · subst hu
    cases e with
    | aborted txn cause =>
        have hfind : (r.noteFailure t (.aborted txn cause)).find t = ((r.find t).abort cause).2 :=
          Register.find_update_self (f := (·.abort cause))
        rw [hfind] at hfirm
        rcases (r.find t).abort_cases cause with ⟨hsame, -⟩ | ⟨-, haborted⟩
        · rwa [hsame] at hfirm
        · rw [haborted] at hfirm
          exact absurd hfirm (by simp [Txn.IsFirm, Txn.toAborted])
    | _ => exact hfirm
  · rwa [Register.find_noteFailure_of_ne hu] at hfirm

theorem firm_of_operationStep {s s' : LockingStore β} {stage stage' : Stage}
    (h : OperationStep s t stage stage' s') (hfirm : (s'.register.find u).IsFirm) :
    (s.register.find u).IsFirm := by
  cases h with
  | reportsObject hturn => exact (Register.wounded_turn hturn).isFirm_iff.mp hfirm
  | reportsName hturn => exact (Register.wounded_turn hturn).isFirm_iff.mp hfirm
  | wakes => exact hfirm
  | acts => exact hfirm
  | fails => exact firm_of_noteFailure hfirm

/-- A participant call makes nobody firm but its own transaction. -/
theorem firm_of_participantMove {s s' : LockingStore β} {stage stage' : ParticipantStage}
    (h : ParticipantMove s t stage stage' s') (hu : t ≠ u) (hfirm : (s'.register.find u).IsFirm) :
    (s.register.find u).IsFirm := by
  cases h with
  | refused hwounded => exact hwounded.isFirm_iff.mp hfirm
  | prepares _ _ _ hother => rwa [hother u hu] at hfirm
  | entersCommit => exact hfirm
  | entersAbort _ _ hother => rwa [hother u hu] at hfirm
  | calls => exact hfirm
  | completes _ hother => rwa [hother u hu] at hfirm
  | releasesObjects => exact hfirm
  | releasesNames => exact hfirm
  | fails => exact firm_of_noteFailure hfirm

/-- Whoever becomes firm does so in a participant call. -/
theorem Move.firm_or_participates (hmove : w.Move w')
    (hfirm : (w'.store.register.find u).IsFirm) :
    (w.store.register.find u).IsFirm ∨
      (∃ call, w.calls.get? u = some call) ∧
        ∀ op stage, w'.calls.get? u ≠ some (.operation op stage) := by
  cases hmove with
  | rest => exact Or.inl hfirm
  | aside => exact Or.inl hfirm
  | shutsDown => exact Or.inl hfirm
  | @aborts t register hself hother hknown =>
      refine Or.inl ?_
      have hfirm' : (register.find u).IsFirm := hfirm
      by_cases hu : t = u
      · subst hu
        rcases hself with hsame | ⟨-, -, cause, haborted⟩
        · rwa [hsame] at hfirm'
        · rw [haborted] at hfirm'
          exact absurd hfirm' (by simp [Txn.IsFirm, Txn.toAborted])
      · rwa [hother u hu] at hfirm'
  | @own t _ hown =>
      cases hown with
      | @begins seniority lifetime hnew =>
          refine Or.inl ?_
          by_cases hu : t = u
          · subst hu
            have hfind : (w.store.begin t seniority lifetime).register.find t =
                .start t seniority (w.store.now + lifetime) := Register.find_start_self _ _
            simp only [hfind] at hfirm
            exact absurd hfirm (by simp [Txn.IsFirm, Txn.start])
          · have hfind : (w.store.begin t seniority lifetime).register.find u =
                w.store.register.find u := Register.find_start_of_ne hu _ _
            rwa [hfind] at hfirm
      | starts _ _ hwounded => exact Or.inl (hwounded.isFirm_iff.mp hfirm)
      | participates => exact Or.inl hfirm
      | operation _ hstep => exact Or.inl (firm_of_operationStep hstep hfirm)
      | @participation call stage stage' _ hcall hstep =>
          by_cases hu : t = u
          · subst hu
            refine Or.inr ⟨⟨_, hcall⟩, fun op stage'' hc => ?_⟩
            rw [FinMap.get?_change_self] at hc
            exact Call.ofParticipantStage_ne_operation call stage' op stage'' hc
          · exact Or.inl (firm_of_participantMove hstep hu hfirm)

/-- **Whoever is firm has retired**, at every moment if at the one before. -/
theorem Move.retired_of_firm (hmove : w.Move w')
    (hlater : w.store.register.Later w'.store.register) (hretains : Retains w)
    (h : ∀ u, (w.store.register.find u).IsFirm → Retired w.store.register w.calls u)
    (hfirm : (w'.store.register.find u).IsFirm) : Retired w'.store.register w'.calls u := by
  rcases hmove.firm_or_participates hfirm with hwas | ⟨⟨call, hcall⟩, hquiet⟩
  · exact hmove.retired hlater (h u hwas)
  · refine ⟨hlater.known u (hretains.orderly.called u call hcall), ?_, ?_⟩
    · intro hactive
      have hstate : (w'.store.register.find u).state = .active := hactive
      simp [Txn.IsFirm, hstate] at hfirm
    · intro op stage hc
      exact absurd hc (hquiet op stage)

end Traffic

/-! ### One table -/

section Table

variable {K : Type} [Hashable K] [DecidableEq K]

/-- The operation of a transaction waits on a signal for a key.  `access` makes an access of a key
and a mode. -/
def Parked (access : K → LockMode → Access) (calls : FinMap TxnId Call) (t : TxnId) (key : K)
    (signal : Signal) : Prop :=
  ∃ op mode plan, calls.get? t = some (.operation op (.waiting signal (access key mode) plan))

/-- A transaction that waits on the signal listens to entries of those who precede it or have retired,
until it is told. -/
structure LeadsUp (table : LockTable K TxnId) (register : Register) (calls : FinMap TxnId Call)
    (t : TxnId) (key : K) (signal : Signal) : Prop where
  used : signal < table.nextSignal
  heeded : table.isNotified signal = true ∨ ∃ e, table.Listens key signal e
  ascends : ∀ e, table.Listens key signal e →
    e.rank.before (Lockers.rank register t) = true ∨ Retired register calls e.owner

/-- All waits for the keys of a table lead up. -/
structure Ascends (access : K → LockMode → Access) (table : LockTable K TxnId)
    (register : Register) (calls : FinMap TxnId Call) : Prop where
  fresh : table.Fresh
  known : ∀ key, ∀ e ∈ table.requests key, register.isKnown e.owner = true
  ranked : table.Ranked register
  leadsUp : ∀ t key signal, Parked access calls t key signal →
    LeadsUp table register calls t key signal

variable {access : K → LockMode → Access} {table table' : LockTable K TxnId}
variable {register register' : Register} {calls calls' : FinMap TxnId Call}

theorem LeadsUp.mono {t : TxnId} {key : K} {signal : Signal}
    (h : LeadsUp table register calls t key signal) (hlater : register.Later register')
    (hretired : ∀ u, Retired register calls u → Retired register' calls' u)
    (hheard : LockTable.Heard table table') (hknown : register.isKnown t = true) :
    LeadsUp table' register' calls' t key signal where
  used := Nat.lt_of_lt_of_le h.used hheard.next
  heeded := by
    rcases h.heeded with htold | ⟨e, hlistens⟩
    · exact Or.inl (hheard.told _ htold)
    · exact (hheard.kept key signal e hlistens).symm.imp_right fun hkept => ⟨e, hkept⟩
  ascends := by
    intro e hlistens
    rw [hlater.rank_eq hknown]
    exact (h.ascends e (hheard.listens_of_lt h.used hlistens)).imp_right (hretired e.owner)

namespace Ascends

theorem ofShards (count : Nat) :
    Ascends access (.ofShards count : LockTable K TxnId) register ∅ where
  fresh := LockTable.fresh_ofShards count
  known := by
    intro key e he
    unfold LockTable.requests at he
    rw [LockTable.entries_ofShards] at he
    exact absurd he List.not_mem_nil
  ranked := LockTable.ranked_ofShards register count
  leadsUp := fun _ _ _ ⟨_, _, _, hc⟩ => absurd hc (by simp)

/-- Where nobody begins to wait and no request is added, waits go on ascending. -/
theorem frame (h : Ascends access table register calls)
    (hcalled : ∀ t call, calls.get? t = some call → register.isKnown t = true)
    (hlater : register.Later register')
    (hretired : ∀ u, Retired register calls u → Retired register' calls' u)
    (heased : LockTable.Eased table table')
    (hcalls : ∀ t key signal, Parked access calls' t key signal →
      Parked access calls t key signal) :
    Ascends access table' register' calls' where
  fresh := heased.heard.fresh h.fresh
  known := fun key e he => hlater.known _ (h.known key e ((heased.requests key).subset he))
  ranked := by
    intro key e he
    have hin := (heased.requests key).subset he
    exact (h.ranked key e hin).trans (hlater.rank_eq (h.known key e hin)).symm
  leadsUp := by
    intro t key signal hparked
    obtain ⟨op, mode, plan, hcall⟩ := hcalls t key signal hparked
    exact (h.leadsUp t key signal ⟨op, mode, plan, hcall⟩).mono hlater hretired heased.heard
      (hcalled t _ hcall)

variable {t : TxnId} {op : Operation} {key : K} {mode : LockMode} {plan : Plan} {stage' : Stage}
variable {answer : LockTurn TxnId} {now deadline : Nat}

omit [Hashable K] [DecidableEq K] in
/-- After a turn whoever waits for a key waited before, or it is the call of the turn. -/
theorem parked_of_turn (hinj : ∀ k m k' m', access k m = access k' m' → k = k' ∧ m = m')
    {state : TxnState} (hstage : Reported t state (access key mode) plan answer stage') {u : TxnId}
    {key' : K} {signal : Signal}
    (h : Parked access (calls.change t (Call.ofStage op stage')) u key' signal) :
    Parked access calls u key' signal ∨ (u = t ∧ key' = key ∧ answer = .waiting signal) := by
  obtain ⟨op', mode', plan', hcall⟩ := h
  by_cases hu : t = u
  · subst hu
    rw [FinMap.get?_change_self] at hcall
    obtain ⟨-, rfl⟩ := Call.ofStage_eq hcall
    generalize haccess : access key mode = reported at hstage
    cases hstage
    exact Or.inr ⟨rfl, (hinj _ _ _ _ haccess).1.symm, rfl⟩
  · rw [FinMap.get?_change, if_neg hu] at hcall
    exact Or.inl ⟨op', mode', plan', hcall⟩

/-- **A turn of a call keeps waits ascending**: what it waits for precedes it, or has retired. -/
theorem turn (hinj : ∀ k m k' m', access k m = access k' m' → k = k' ∧ m = m')
    (h : Ascends access table register calls) (hdistinct : table.Distinct)
    (hcalled : ∀ t call, calls.get? t = some call → register.isKnown t = true)
    (hfirm : ∀ u, (register.find u).IsFirm → Retired register calls u)
    (hretired : ∀ u, Retired register calls u →
      Retired register' (calls.change t (Call.ofStage op stage')) u)
    (hcall : calls.get? t = some (.operation op (.report (access key mode) plan)))
    (hturn : table.turn now deadline t key mode register = (answer, register', table'))
    (hstage : Reported t (register.stateOf t) (access key mode) plan answer stage') :
    Ascends access table' register' (calls.change t (Call.ofStage op stage')) := by
  have hwounded := Register.wounded_turn hturn
  have hheard := LockTable.heard_turn hdistinct hturn
  refine ⟨hheard.fresh h.fresh, fun key' e he => hwounded.known _ ?_,
    LockTable.ranked_turn Register.ageless hdistinct h.ranked hturn, fun u key' signal hu => ?_⟩
  · by_cases hkey : key = key'
    · subst hkey
      by_cases howner : e.owner = t
      · rw [howner]
        exact hcalled t _ hcall
      · have hspec := LockTable.turn_spec Register.final_aborted hdistinct hturn
        exact h.known key e (hspec.others e he howner)
    · rw [LockTable.requests_turn_of_ne hturn hkey] at he
      exact h.known key' e he
  · rcases parked_of_turn hinj hstage hu with hwas | ⟨rfl, rfl, rfl⟩
    · obtain ⟨op', mode', plan', hcall'⟩ := hwas
      exact (h.leadsUp u key' signal ⟨op', mode', plan', hcall'⟩).mono hwounded.later hretired hheard
        (hcalled u _ hcall')
    · obtain ⟨-, hused, x, hlistens, hbars⟩ :=
        LockTable.turn_waiting Register.lasting_isFirm hdistinct h.fresh hturn
      refine ⟨hused, Or.inr ⟨x, (hlistens x).mpr rfl⟩, fun e he => ?_⟩
      rw [(hlistens e).mp he]
      -- Whoever holds the key and did not give up was firm before the turn.
      exact hbars.cause.imp_right fun hcause =>
        hretired x.owner (hfirm x.owner (hwounded.isFirm_iff.mp hcause.2))

theorem change (h : Ascends access table register calls)
    (hcalled : ∀ t call, calls.get? t = some call → register.isKnown t = true)
    (hlater : register.Later register') {call' : Option Call}
    (hretired : ∀ u, Retired register calls u → Retired register' (calls.change t call') u)
    (heased : LockTable.Eased table table')
    (hquiet : ∀ op signal key mode plan,
      call' ≠ some (.operation op (.waiting signal (access key mode) plan))) :
    Ascends access table' register' (calls.change t call') := by
  refine h.frame hcalled hlater hretired heased ?_
  rintro u key' signal ⟨op', mode', plan', hcall'⟩
  by_cases hu : t = u
  · subst hu
    rw [FinMap.get?_change_self] at hcall'
    exact absurd hcall' (hquiet op' signal key' mode' plan')
  · rw [FinMap.get?_change, if_neg hu] at hcall'
    exact ⟨op', mode', plan', hcall'⟩

end Ascends

end Table

/-! ### A store in use -/

theorem Operation.firstStage_ne_waiting (op : Operation) (signal : Signal) (access : Access)
    (plan : Plan) : op.firstStage ≠ .waiting signal access plan := by
  cases op <;> simp [Operation.firstStage]

theorem Store.callThen_ne_waiting {ρo ρn α : Type} [Backend β] {s : Store ρo ρn β} {t : TxnId}
    {c : BackendCall α} {next : α → Stage} {signal : Signal} {access : Access} {plan : Plan}
    (hnext : ∀ a, next a ≠ .waiting signal access plan) :
    (s.callThen t c next).1 ≠ .waiting signal access plan := by
  unfold callThen
  split
  · exact hnext _
  · simp

theorem Store.act_ne_waiting {ρo ρn : Type} [Reporter ρo ObjectId] [Reporter ρn NameKey]
    [Backend β] (s : Store ρo ρn β) (t : TxnId) (plan : Plan) (signal : Signal) (access : Access)
    (plan' : Plan) : (s.act t plan).1 ≠ .waiting signal access plan' := by
  have hresult : ∀ result, Stage.ofResult result ≠ .waiting signal access plan' := by
    intro result
    cases result <;> simp [Stage.ofResult]
  cases plan with
  | setMany unreported items =>
      cases unreported with
      | nil => exact callThen_ne_waiting fun _ => by simp
      | cons oid rest => simp [act]
  | getBinding name => exact callThen_ne_waiting fun before => by cases before <;> simp
  | setBinding name oid => exact callThen_ne_waiting fun before => by cases before <;> simp
  | confirm scan locked =>
      refine callThen_ne_waiting fun answer => ?_
      cases NameRound.ofAnswer locked answer with
      | settled next => exact hresult _
      | again next => simp
  | nextObject after => exact callThen_ne_waiting fun next => by cases next <;> simp
  | answer result => exact hresult result
  | _ => exact callThen_ne_waiting fun _ => by simp

namespace Traffic

/-- All waits for objects and names lead up, and whoever is firm has retired. -/
structure Ascending (w : LockingTraffic β) : Prop where
  objects : Ascends .object w.store.objects.table w.store.register w.calls
  names : Ascends .name w.store.names.table w.store.register w.calls
  firm : ∀ u, (w.store.register.find u).IsFirm → Retired w.store.register w.calls u

theorem Ascending.goesOn {w : LockingTraffic β} (h : Ascending w) (hretains : Retains w)
    {store : LockingStore β} {t : TxnId} (call' : Option Call)
    (hlater : w.store.register.Later store.register)
    (hretired : ∀ u, Retired w.store.register w.calls u →
      Retired store.register (w.calls.change t call') u)
    (hobjects : LockTable.Eased w.store.objects.table store.objects.table)
    (hnames : LockTable.Eased w.store.names.table store.names.table)
    (hquiet : ∀ op signal access plan, call' ≠ some (.operation op (.waiting signal access plan))) :
    Ascends .object store.objects.table store.register (w.calls.change t call') ∧
      Ascends .name store.names.table store.register (w.calls.change t call') :=
  ⟨h.objects.change hretains.orderly.called hlater hretired hobjects
      fun op signal _ _ => hquiet op signal _,
    h.names.change hretains.orderly.called hlater hretired hnames
      fun op signal _ _ => hquiet op signal _⟩

namespace Ascending

variable {w w' : LockingTraffic β} {t : TxnId}

theorem new (shards : Nat) (backend : β) : Ascending (Traffic.new shards backend) where
  objects := .ofShards shards
  names := .ofShards shards
  firm := fun _ hfirm => absurd hfirm (by simp [Txn.IsFirm, Traffic.new, Store.new, Register.find,
    Register.empty, Register.unknown, Txn.start])

variable [Backend β]

theorem operation {op : Operation} {stage stage' : Stage} {store : LockingStore β}
    (h : Ascending w) (hretains : Retains w)
    (hcall : w.calls.get? t = some (.operation op stage))
    (hstep : OperationStep w.store t stage stage' store)
    (hretired : ∀ u, Retired w.store.register w.calls u →
      Retired store.register (w.calls.change t (Call.ofStage op stage')) u) :
    Ascends .object store.objects.table store.register
        (w.calls.change t (Call.ofStage op stage')) ∧
      Ascends .name store.names.table store.register
        (w.calls.change t (Call.ofStage op stage')) := by
  have hlater := later_of_operationStep hstep
  have hquiet : (∀ signal access plan, stage' ≠ .waiting signal access plan) →
      ∀ op' signal access plan,
        Call.ofStage op stage' ≠ some (.operation op' (.waiting signal access plan)) :=
    fun hno op' signal access plan hc => hno signal access plan (Call.ofStage_eq hc).2
  have hobject : ∀ oid mode oid' mode', Access.object oid mode = .object oid' mode' →
      oid = oid' ∧ mode = mode' := by
    intro oid mode oid' mode' heq
    cases heq
    exact ⟨rfl, rfl⟩
  have hname : ∀ key mode key' mode', Access.name key mode = .name key' mode' →
      key = key' ∧ mode = mode' := by
    intro key mode key' mode' heq
    cases heq
    exact ⟨rfl, rfl⟩
  cases hstep with
  | reportsObject hturn hstage =>
      refine ⟨h.objects.turn hobject hretains.objects.distinct hretains.orderly.called h.firm
        hretired hcall hturn hstage, ?_⟩
      refine h.names.change hretains.orderly.called hlater hretired (.refl _) ?_
      intro op' signal key mode plan hc
      obtain ⟨-, rfl⟩ := Call.ofStage_eq hc
      cases hstage
  | reportsName hturn hstage =>
      refine ⟨?_, h.names.turn hname hretains.names.distinct hretains.orderly.called h.firm
        hretired hcall hturn hstage⟩
      refine h.objects.change hretains.orderly.called hlater hretired (.refl _) ?_
      intro op' signal oid mode plan hc
      obtain ⟨-, rfl⟩ := Call.ofStage_eq hc
      cases hstage
  | wakes =>
      exact h.goesOn hretains _ hlater hretired (.refl _) (.refl _) (hquiet (by simp))
  | acts hact =>
      refine h.goesOn hretains _ hlater hretired (.refl _) (.refl _) (hquiet ?_)
      intro signal access plan' hc
      exact w.store.act_ne_waiting t _ signal access plan' ((congrArg Prod.fst hact).trans hc)
  | fails =>
      exact h.goesOn hretains _ hlater hretired (.refl _) (.refl _) (hquiet (by simp))

/-- A participant call waits for nobody, and takes requests away at most. -/
theorem participation {call : ParticipantCall} {stage stage' : ParticipantStage}
    {store : LockingStore β} (h : Ascending w) (hretains : Retains w)
    (hstep : ParticipantMove w.store t stage stage' store)
    (hlater : w.store.register.Later store.register)
    (hretired : ∀ u, Retired w.store.register w.calls u →
      Retired store.register (w.calls.change t (Call.ofParticipantStage call stage')) u) :
    Ascends .object store.objects.table store.register
        (w.calls.change t (Call.ofParticipantStage call stage')) ∧
      Ascends .name store.names.table store.register
        (w.calls.change t (Call.ofParticipantStage call stage')) := by
  refine h.goesOn hretains _ hlater hretired ?_ ?_ fun op signal access plan =>
    Call.ofParticipantStage_ne_operation call stage' op _
  · cases hstep with
    | releasesObjects => exact LockTable.eased_releaseAll hretains.objects.distinct t
    | _ => exact .refl _
  · cases hstep with
    | releasesNames => exact LockTable.eased_releaseAll hretains.names.distinct t
    | _ => exact .refl _

theorem own (h : Ascending w) (hretains : Retains w) (hown : w.OwnMove t w')
    (hlater : w.store.register.Later w'.store.register)
    (hretired : ∀ u, Retired w.store.register w.calls u →
      Retired w'.store.register w'.calls u) :
    Ascends .object w'.store.objects.table w'.store.register w'.calls ∧
      Ascends .name w'.store.names.table w'.store.register w'.calls := by
  cases hown with
  | begins =>
      exact ⟨h.objects.frame hretains.orderly.called hlater hretired (.refl _)
          (fun _ _ _ hparked => hparked),
        h.names.frame hretains.orderly.called hlater hretired (.refl _)
          (fun _ _ _ hparked => hparked)⟩
  | @starts op stage _ _ _ _ hstage =>
      refine h.goesOn hretains (some (.operation op stage)) hlater hretired (.refl _) (.refl _) ?_
      intro op' signal access plan hc
      cases hc
      rcases hstage with ⟨hfirst, -⟩ | ⟨e, he, -⟩
      · exact op.firstStage_ne_waiting signal access plan hfirst.symm
      · cases he
  | @participates call =>
      exact h.goesOn hretains (some (.participation call (.enter call))) hlater hretired
        (.refl _) (.refl _) (by simp)
  | operation hcall hstep => exact h.operation hretains hcall hstep hretired
  | participation _ hstep => exact h.participation hretains hstep hlater hretired

/-- **Every action keeps all waits ascending.** -/
theorem move (h : Ascending w) (hretains : Retains w) (hmove : w.Move w')
    (hlater : w.store.register.Later w'.store.register) : Ascending w' := by
  have hretired := fun u => @Move.retired _ _ _ _ u hmove hlater
  have htables : Ascends .object w'.store.objects.table w'.store.register w'.calls ∧
      Ascends .name w'.store.names.table w'.store.register w'.calls := by
    cases hmove with
    | rest => exact ⟨h.objects, h.names⟩
    | aside hobjects hnames =>
        constructor
        · show Ascends .object (LockingReporter.table _) _ _
          rw [hobjects]
          exact h.objects
        · show Ascends .name (LockingReporter.table _) _ _
          rw [hnames]
          exact h.names
    | aborts =>
        exact ⟨h.objects.frame hretains.orderly.called hlater hretired (.refl _)
            (fun _ _ _ hparked => hparked),
          h.names.frame hretains.orderly.called hlater hretired (.refl _)
            (fun _ _ _ hparked => hparked)⟩
    | own hown => exact h.own hretains hown hlater hretired
    | shutsDown => exact ⟨h.objects, h.names⟩
  exact ⟨htables.1, htables.2, fun u => hmove.retired_of_firm hlater hretains h.firm⟩

theorem run (shards : Nat) (backend : β) (actions : List StoreAction) :
    Ascending ((Traffic.new shards backend).run actions) := by
  have hboth := run_induction (P := fun w : LockingTraffic β => Retains w ∧ Ascending w)
    ⟨Retains.new shards backend, new shards backend⟩
    (fun w a h => ⟨h.1.move (move_perform w a),
      h.2.move h.1 (move_perform w a) (later_perform w a)⟩) actions
  exact hboth.2

end Ascending

/-! ### No circle -/

/-- The owner of an entry to which a parked call of `t` listens is `u`. -/
def WaitsFor (w : LockingTraffic β) (t u : TxnId) : Prop :=
  ∃ op signal access plan, w.calls.get? t = some (.operation op (.waiting signal access plan)) ∧
    match access with
    | .object oid _ =>
      ∃ e ∈ w.store.objects.table.entries oid, signal ∈ e.listeners ∧ e.owner = u
    | .name key _ => ∃ e ∈ w.store.names.table.entries key, signal ∈ e.listeners ∧ e.owner = u

/-- Whether a signal for an access has been given. -/
def isTold (w : LockingTraffic β) (signal : Signal) : Access → Bool
  | .object _ _ => w.store.objects.table.isNotified signal
  | .name _ _ => w.store.names.table.isNotified signal

namespace Ascending

variable {w : LockingTraffic β} {t u : TxnId}

/-- Whoever one waits for precedes it or has retired. -/
theorem before_of_waitsFor (h : Ascending w) (hwaits : w.WaitsFor t u) :
    (Lockers.rank w.store.register u).before (Lockers.rank w.store.register t) = true ∨
      Retired w.store.register w.calls u := by
  obtain ⟨op, signal, access, plan, hcall, hlistens⟩ := hwaits
  cases access with
  | object oid mode =>
      obtain ⟨e, he, hsignal, rfl⟩ := hlistens
      have hup := (h.objects.leadsUp t oid signal ⟨op, mode, plan, hcall⟩).ascends e.request
        ⟨e, he, rfl, hsignal⟩
      rwa [h.objects.ranked oid e.request (List.mem_map_of_mem he)] at hup
  | name key mode =>
      obtain ⟨e, he, hsignal, rfl⟩ := hlistens
      have hup := (h.names.leadsUp t key signal ⟨op, mode, plan, hcall⟩).ascends e.request
        ⟨e, he, rfl, hsignal⟩
      rwa [h.names.ranked key e.request (List.mem_map_of_mem he)] at hup

/-- Whoever has retired waits for nobody. -/
theorem not_retired_of_waitsFor (hwaits : w.WaitsFor t u) :
    ¬ Retired w.store.register w.calls t := by
  intro hretired
  obtain ⟨op, signal, access, plan, hcall, -⟩ := hwaits
  obtain ⟨e, he⟩ := hretired.failing op _ hcall
  cases he

/-- A chain of waits leads up as far as its last member waits. -/
theorem before_of_chain (h : Ascending w) (hchain : Relation.TransGen w.WaitsFor t u)
    {v : TxnId} (hwaits : w.WaitsFor u v) :
    (Lockers.rank w.store.register u).before (Lockers.rank w.store.register t) = true := by
  -- By induction on the chain, from its last wait.
  induction hchain generalizing v with
  | single hfirst =>
      exact (h.before_of_waitsFor hfirst).resolve_right (not_retired_of_waitsFor hwaits)
  | tail _ hlast ih =>
      have hup := (h.before_of_waitsFor hlast).resolve_right (not_retired_of_waitsFor hwaits)
      exact Rank.before_trans hup (ih hlast)

end Ascending

/--
**No deadlock.**  After every run, waits for objects and names taken together form no circle; and
every parked call that has not been told to go on does wait for somebody.
-/
theorem no_deadlock [Backend β] (shards : Nat) (backend : β) (actions : List StoreAction) :
    (∀ t, ¬ Relation.TransGen ((new shards backend).run actions).WaitsFor t t) ∧
      ∀ t op signal access plan,
        ((new shards backend).run actions).calls.get? t =
          some (.operation op (.waiting signal access plan)) →
        ((new shards backend).run actions).isTold signal access = false →
        ∃ u, ((new shards backend).run actions).WaitsFor t u := by
  have h := Ascending.run shards backend actions
  refine ⟨fun t hcircle => ?_, fun t op signal access plan hcall huntold => ?_⟩
  · obtain ⟨u, hfirst, -⟩ := Relation.TransGen.head'_iff.mp hcircle
    have hup := h.before_of_chain hcircle hfirst
    rw [Rank.before_irrefl] at hup
    exact absurd hup (by simp)
  · cases access with
    | object oid mode =>
        rcases (h.objects.leadsUp t oid signal ⟨op, mode, plan, hcall⟩).heeded with
          htold | ⟨_, e, he, rfl, hsignal⟩
        · exact absurd (huntold.symm.trans htold) (by simp)
        · exact ⟨e.owner, op, signal, .object oid mode, plan, hcall, e, he, hsignal, rfl⟩
    | name key mode =>
        rcases (h.names.leadsUp t key signal ⟨op, mode, plan, hcall⟩).heeded with
          htold | ⟨_, e, he, rfl, hsignal⟩
        · exact absurd (huntold.symm.trans htold) (by simp)
        · exact ⟨e.owner, op, signal, .name key mode, plan, hcall, e, he, hsignal, rfl⟩

end Traffic

end ObjectStore
