/-
Who is woken when it has to give up.

A store has a lock table for objects and one for names, and each knows the calls that are parked in
it and no others.  A transaction that gives up what it holds in one table is woken if its call is
parked in that table.  If the call is parked in the other one, nobody tells it: it sleeps on until
the transaction that it waits for goes out of its way or its own deadline comes, and keeps its other
locks as long.  `Traffic.woken_iff` says that there is no third case.
-/
import ObjectStore.Backend.Memory
import ObjectStore.Proofs.Locking.Record
import ObjectStore.Proofs.Store.Deadlock

namespace ObjectStore

variable {β : Type}

/-- Whether an access is reported to the table for objects. -/
def Access.isObject : Access → Bool
  | .object _ _ => true
  | .name _ _ => false

section Table

variable {K : Type} [Hashable K] [DecidableEq K]

/-- A table knows the signal of every call that is parked in it. -/
def Enlisted (access : K → LockMode → Access) (table : LockTable K TxnId)
    (calls : FinMap TxnId Call) : Prop :=
  ∀ t key signal, Parked access calls t key signal → table.parked.get? t = some signal

namespace Enlisted

variable {access : K → LockMode → Access} {table table' : LockTable K TxnId}
variable {calls : FinMap TxnId Call} {t : TxnId}

omit [Hashable K] [DecidableEq K] in
theorem change (h : Enlisted access table calls) {call' : Option Call}
    (hparked : ∀ u, u ≠ t → table'.parked.get? u = table.parked.get? u)
    (hquiet : ∀ op signal key mode plan,
      call' ≠ some (.operation op (.waiting signal (access key mode) plan))) :
    Enlisted access table' (calls.change t call') := by
  rintro u key signal ⟨op, mode, plan, hcall⟩
  by_cases hu : t = u
  · subst hu
    rw [FinMap.get?_change_self] at hcall
    exact absurd hcall (hquiet op signal key mode plan)
  · rw [FinMap.get?_change, if_neg hu] at hcall
    rw [hparked u (Ne.symm hu)]
    exact h u key signal ⟨op, mode, plan, hcall⟩

theorem turn (h : Enlisted access table calls) (hd : table.Distinct)
    (hinj : ∀ k m k' m', access k m = access k' m' → k = k' ∧ m = m') {op : Operation} {key : K}
    {mode : LockMode} {plan : Plan} {stage' : Stage} {answer : LockTurn TxnId} {now deadline : Nat}
    {register register' : Register} {state : TxnState}
    (hcall : calls.get? t = some (.operation op (.report (access key mode) plan)))
    (hturn : table.turn now deadline t key mode register = (answer, register', table'))
    (hstage : Reported t state (access key mode) plan answer stage') :
    Enlisted access table' (calls.change t (Call.ofStage op stage')) := by
  intro u key' signal hparked
  rcases Ascends.parked_of_turn hinj hstage hparked with hwas | ⟨rfl, -, rfl⟩
  · have hu : u ≠ t := by
      rintro rfl
      obtain ⟨op', mode', plan', hcall'⟩ := hwas
      rw [hcall] at hcall'
      cases hcall'
    rw [(LockTable.served_turn Register.ageless hd hturn).parked u hu]
    exact h u key' signal hwas
  · cases LockTable.turn_outcome hturn with
    | waiting => exact FinMap.get?_insert_self _ _ _

end Enlisted

end Table

namespace Traffic

/-- Every call that is parked is known to its table. -/
structure Signalled (w : LockingTraffic β) : Prop where
  objects : Enlisted .object w.store.objects.table w.calls
  names : Enlisted .name w.store.names.table w.calls

namespace Signalled

variable {w w' : LockingTraffic β} {t : TxnId}

theorem new (shards : Nat) (backend : β) : Signalled (Traffic.new shards backend) where
  objects := fun _ _ _ ⟨_, _, _, hc⟩ => absurd hc (by simp [Traffic.new])
  names := fun _ _ _ ⟨_, _, _, hc⟩ => absurd hc (by simp [Traffic.new])

theorem goesOn (h : w.Signalled) {store : LockingStore β} {log : List Event} (call' : Option Call)
    (hobjects : ∀ u, u ≠ t → store.objects.table.parked.get? u = w.store.objects.table.parked.get? u)
    (hnames : ∀ u, u ≠ t → store.names.table.parked.get? u = w.store.names.table.parked.get? u)
    (hquiet : ∀ op signal access plan, call' ≠ some (.operation op (.waiting signal access plan))) :
    Signalled { store, calls := w.calls.change t call', log } where
  objects := h.objects.change hobjects fun op signal _ _ => hquiet op signal _
  names := h.names.change hnames fun op signal _ _ => hquiet op signal _

variable [Backend β]

theorem operation {op : Operation} {stage stage' : Stage} {store : LockingStore β} {log : List Event}
    (h : w.Signalled) (hretains : Retains w) (hcall : w.calls.get? t = some (.operation op stage))
    (hstep : OperationStep w.store t stage stage' store) :
    Signalled { store, calls := w.calls.change t (Call.ofStage op stage'), log } := by
  have hquiet : (∀ signal access plan, stage' ≠ .waiting signal access plan) →
      ∀ op' signal access plan,
        Call.ofStage op stage' ≠ some (.operation op' (.waiting signal access plan)) :=
    fun hno op' signal access plan hc => hno signal access plan (Call.ofStage_eq hc).2
  cases hstep with
  | reportsObject hturn hstage =>
      refine ⟨h.objects.turn hretains.objects.distinct ?_ hcall hturn hstage,
        h.names.change (fun _ _ => rfl) fun op' signal key mode plan hc => ?_⟩
      · intro oid mode oid' mode' heq
        cases heq
        exact ⟨rfl, rfl⟩
      · obtain ⟨-, rfl⟩ := Call.ofStage_eq hc
        cases hstage
  | reportsName hturn hstage =>
      refine ⟨h.objects.change (fun _ _ => rfl) fun op' signal key mode plan hc => ?_,
        h.names.turn hretains.names.distinct ?_ hcall hturn hstage⟩
      · obtain ⟨-, rfl⟩ := Call.ofStage_eq hc
        cases hstage
      · intro key mode key' mode' heq
        cases heq
        exact ⟨rfl, rfl⟩
  | wakes => exact h.goesOn _ (fun _ _ => rfl) (fun _ _ => rfl) (hquiet (by simp))
  | acts hact =>
      refine h.goesOn _ (fun _ _ => rfl) (fun _ _ => rfl) (hquiet fun signal access plan' hc => ?_)
      exact w.store.act_ne_waiting t _ signal access plan' ((congrArg Prod.fst hact).trans hc)
  | fails => exact h.goesOn _ (fun _ _ => rfl) (fun _ _ => rfl) (hquiet (by simp))

theorem participation {call : ParticipantCall} {stage stage' : ParticipantStage}
    {store : LockingStore β} {log : List Event} (h : w.Signalled)
    (hstep : ParticipantMove w.store t stage stage' store) :
    Signalled { store, calls := w.calls.change t (Call.ofParticipantStage call stage'), log } := by
  refine h.goesOn _ (fun u hu => ?_) (fun u hu => ?_) fun op signal access plan =>
    Call.ofParticipantStage_ne_operation call stage' op _
  · cases hstep with
    | releasesObjects => exact (FinMap.get?_erase _ t u).trans (if_neg (Ne.symm hu))
    | _ => rfl
  · cases hstep with
    | releasesNames => exact (FinMap.get?_erase _ t u).trans (if_neg (Ne.symm hu))
    | _ => rfl

/-- **Every action leaves the parked calls known.** -/
theorem move (h : w.Signalled) (hretains : Retains w) (hmove : w.Move w') : w'.Signalled := by
  cases hmove with
  | rest => exact h
  | aside hobjects hnames =>
      constructor
      · show Enlisted .object (LockingReporter.table _) _
        rw [hobjects]
        exact h.objects
      · show Enlisted .name (LockingReporter.table _) _
        rw [hnames]
        exact h.names
  | aborts => exact ⟨h.objects, h.names⟩
  | shutsDown => exact ⟨h.objects, h.names⟩
  | own hown =>
      cases hown with
      | begins => exact ⟨h.objects, h.names⟩
      | @starts op stage _ _ _ _ hstage =>
          refine h.goesOn (some (.operation op stage)) (fun _ _ => rfl) (fun _ _ => rfl) ?_
          intro op' signal access plan hc
          cases hc
          rcases hstage with ⟨hfirst, -⟩ | ⟨e, he, -⟩
          · exact op.firstStage_ne_waiting signal access plan hfirst.symm
          · cases he
      | @participates call =>
          exact h.goesOn (some (.participation call (.enter call))) (fun _ _ => rfl) (fun _ _ => rfl)
            (by simp)
      | operation hcall hstep => exact h.operation hretains hcall hstep
      | participation _ hstep => exact h.participation hstep

theorem run (shards : Nat) (backend : β) (actions : List StoreAction) :
    Signalled ((Traffic.new shards backend).run actions) := by
  have hboth := run_induction (P := fun w : LockingTraffic β => Retains w ∧ Signalled w)
    ⟨Retains.new shards backend, new shards backend⟩
    (fun w a h => ⟨h.1.move (move_perform w a), h.2.move h.1 (move_perform w a)⟩) actions
  exact hboth.2

end Signalled

/-! ### Giving up -/

/-- The access that the next step of a transaction reports. -/
def reports? (t : TxnId) (w : LockingTraffic β) : Option Access :=
  match w.calls.get? t with
  | some (.operation _ (.report access _)) => some access
  | _ => none

/-- Those whom the next step of a transaction asks to give up, in order. -/
def wounds (t : TxnId) (w : LockingTraffic β) : List (Wound TxnId) :=
  match w.reports? t with
  | some (.object oid mode) =>
    w.store.objects.table.turnWounds w.store.now (w.store.register.find t).deadline t oid mode
      w.store.register
  | some (.name key mode) =>
    w.store.names.table.turnWounds w.store.now (w.store.register.find t).deadline t key mode
      w.store.register
  | none => []

/-- A step that reports an access is one turn of a lock call. -/
theorem perform_of_reports [Backend β] {w : LockingTraffic β} {t : TxnId} {access : Access}
    (h : w.reports? t = some access) :
    ∃ op plan stage' store, w.calls.get? t = some (.operation op (.report access plan)) ∧
      OperationStep w.store t (.report access plan) stage' store ∧
      w.perform (.proceed t) =
        { store
          calls := w.calls.change t (Call.ofStage op stage')
          log := w.log ++ Event.ofStep t op (.report access plan) stage' } := by
  unfold reports? at h
  split at h
  · rename_i op access' plan hcall
    cases h
    have hcan : w.store.canStep t (.report access plan) = true := rfl
    refine ⟨op, plan, _, _, hcall, operationStep_step w.store t hcan, ?_⟩
    simp only [perform, hcall, hcan, if_true]
    rfl
  · exact absurd h (by simp)

/--
**Who is woken when it has to give up.**  In a step of a run a transaction gives up on behalf of
another one, while a call of its own is parked.  It is aborted then and its call is still parked;
and the call is told to go on in this step exactly if it is parked in the table in which its
transaction has given up.
-/
theorem woken_iff [Backend β] (shards : Nat) (backend : β) (actions : List StoreAction)
    {w : LockingTraffic β} (hw : w = (new shards backend).run actions) {t : TxnId}
    {v : Wound TxnId} (hv : v ∈ w.wounds t) (hgave : v.gaveUp = true) {op : Operation}
    {signal : Signal} {access : Access} {plan : Plan}
    (hcall : w.calls.get? v.target = some (.operation op (.waiting signal access plan))) :
    (w.perform (.proceed t)).store.register.stateOf v.target = .aborted ∧
    (w.perform (.proceed t)).calls.get? v.target =
      some (.operation op (.waiting signal access plan)) ∧
    ((w.perform (.proceed t)).isTold signal access = true ↔
      w.isTold signal access = true ∨
        ∃ reported, w.reports? t = some reported ∧ reported.isObject = access.isObject) := by
  have hretains : Retains w := hw ▸ Retains.run shards backend actions
  have hsignalled : Signalled w := hw ▸ Signalled.run shards backend actions
  cases hreports : w.reports? t with
  | none =>
      simp only [wounds, hreports] at hv
      exact absurd hv List.not_mem_nil
  | some reported =>
      obtain ⟨op', plan', stage', store, hcall', hstep, heq⟩ := perform_of_reports hreports
      have hne : t ≠ v.target := by
        rintro rfl
        rw [hcall'] at hcall
        cases hcall
      have hkept : (w.calls.change t (Call.ofStage op' stage')).get? v.target =
          some (.operation op (.waiting signal access plan)) := by
        rw [FinMap.get?_change, if_neg hne]
        exact hcall
      rw [heq]
      simp only [wounds, hreports] at hv
      cases hstep with
      | reportsObject hturn =>
          refine ⟨LockTable.gone_of_turnWounds Register.final_aborted hturn v hv hgave, hkept, ?_⟩
          cases access with
          | object oid' mode' =>
              refine ⟨fun _ => Or.inr ⟨_, rfl, rfl⟩, fun _ => ?_⟩
              exact (LockTable.asked_turn Register.ageless hretains.objects.distinct hturn).2 v hv
                hgave signal (hsignalled.objects _ oid' signal ⟨op, mode', plan, hcall⟩)
          | name key' mode' =>
              refine ⟨Or.inl, fun h => h.resolve_right ?_⟩
              rintro ⟨_, hsome, hsame⟩
              cases hsome
              exact absurd hsame (by simp [Access.isObject])
      | reportsName hturn =>
          refine ⟨LockTable.gone_of_turnWounds Register.final_aborted hturn v hv hgave, hkept, ?_⟩
          cases access with
          | object oid' mode' =>
              refine ⟨Or.inl, fun h => h.resolve_right ?_⟩
              rintro ⟨_, hsome, hsame⟩
              cases hsome
              exact absurd hsame (by simp [Access.isObject])
          | name key' mode' =>
              refine ⟨fun _ => Or.inr ⟨_, rfl, rfl⟩, fun _ => ?_⟩
              exact (LockTable.asked_turn Register.ageless hretains.names.distinct hturn).2 v hv
                hgave signal (hsignalled.names _ key' signal ⟨op, mode', plan, hcall⟩)

/-- The youngest of three transactions reads two objects.  The eldest reads a name, and the youngest
waits to bind it. -/
def readerWaitsForName : List StoreAction :=
  [.begin ⟨1⟩ ⟨1, 0⟩ 9, .begin ⟨2⟩ ⟨2, 0⟩ 9, .begin ⟨3⟩ ⟨3, 0⟩ 9,
    .operate ⟨3⟩ (.get ⟨7⟩ false), .proceed ⟨3⟩, .proceed ⟨3⟩, .proceed ⟨3⟩,
    .operate ⟨3⟩ (.get ⟨8⟩ false), .proceed ⟨3⟩, .proceed ⟨3⟩, .proceed ⟨3⟩,
    .operate ⟨1⟩ (.getBinding ⟨"n"⟩), .proceed ⟨1⟩,
    .operate ⟨3⟩ (.setBinding ⟨"n"⟩ ⟨7⟩), .proceed ⟨3⟩, .operate ⟨2⟩ (.mark ⟨7⟩)]

/-- The transaction in the middle wants one of the objects, and the youngest gives it up. -/
theorem wounds_readerWaitsForName :
    ((new 1 Memory.empty).run readerWaitsForName).wounds ⟨2⟩ = [⟨⟨3⟩, .outranked ⟨2⟩, true⟩] := by
  decide

theorem calls_readerWaitsForName :
    ((new 1 Memory.empty).run readerWaitsForName).calls.get? ⟨3⟩ =
      some (.operation (.setBinding ⟨"n"⟩ ⟨7⟩)
        (.waiting 0 (.name (.ofName ⟨"n"⟩) .write) (.setBinding ⟨"n"⟩ ⟨7⟩))) :=
  rfl

/-- It is aborted and its call is not told. -/
theorem woken_readerWaitsForName :
    (((new 1 Memory.empty).run readerWaitsForName).perform (.proceed ⟨2⟩)).store.register.stateOf ⟨3⟩ =
        .aborted ∧
      (((new 1 Memory.empty).run readerWaitsForName).perform (.proceed ⟨2⟩)).isTold 0
        (.name (.ofName ⟨"n"⟩) .write) = false := by
  have hwound : (⟨⟨3⟩, .outranked ⟨2⟩, true⟩ : Wound TxnId) ∈
      ((new 1 Memory.empty).run readerWaitsForName).wounds ⟨2⟩ := by
    rw [wounds_readerWaitsForName]
    exact List.mem_singleton_self _
  obtain ⟨haborted, -, htold⟩ :=
    woken_iff 1 Memory.empty readerWaitsForName rfl hwound rfl calls_readerWaitsForName
  refine ⟨haborted, Bool.of_not_eq_true fun hyes => ?_⟩
  rcases htold.mp hyes with hbefore | ⟨reported, hreports, hsame⟩
  · exact absurd hbefore (by decide)
  · obtain rfl : Access.object ⟨7⟩ .write = reported := Option.some.inj hreports
    exact absurd hsame (by decide)

/-- **Not everybody is woken who has given up.**  The call of the youngest sleeps on, and its
transaction keeps the other object. -/
theorem exists_asleep :
    ∃ (shards : Nat) (actions : List StoreAction) (t : TxnId) (v : Wound TxnId) (op : Operation)
      (signal : Signal) (access : Access) (plan : Plan) (oid : ObjectId),
      v ∈ ((new shards Memory.empty).run actions).wounds t ∧ v.gaveUp = true ∧
      ((new shards Memory.empty).run actions).calls.get? v.target =
        some (.operation op (.waiting signal access plan)) ∧
      (((new shards Memory.empty).run actions).perform (.proceed t)).isTold signal access = false ∧
      (v.target, .read) ∈ (((new shards Memory.empty).run actions).perform
        (.proceed t)).store.objects.table.holders oid :=
  ⟨1, readerWaitsForName, ⟨2⟩, ⟨⟨3⟩, .outranked ⟨2⟩, true⟩, _, _, _, _, ⟨8⟩, by decide, rfl,
    calls_readerWaitsForName, by decide, by decide⟩

end Traffic

end ObjectStore
