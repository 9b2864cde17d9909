/-
What operations on objects have been allowed by the time they are answered.

An operation reports an access to every object that it names before it calls the backend.  So whoever
has been told something of an object has been allowed to access it, and whoever has written an object
has been allowed to write it, or has made it: no access is reported to an object that is new.
-/
import ObjectStore.Proofs.Store.Ledger
import ObjectStore.Proofs.Store.Scan

namespace ObjectStore

/-- Whether an answer was found in the data: a success, or that there is no such object. -/
def isInData : Except StoreError Reply → Bool
  | .ok _ => true
  | .error (.objectNotFound _) => true
  | .error _ => false

theorem isInData_error {e : StoreError} (h : ∀ oid, e ≠ .objectNotFound oid) :
    isInData (.error e) = false := by
  cases e with
  | objectNotFound oid => exact absurd rfl (h oid)
  | _ => rfl

namespace Operation

/-- The accesses that an operation reports to the objects that it names. -/
def objectAccesses : Operation → List Access
  | mark oid => [.object oid .write]
  | get oid forUpdate => [.object oid (if forUpdate then .write else .read)]
  | set oid _ => [.object oid .write]
  | setMany oids _ => oids.map (.object · .write)
  | remove oid => [.object oid .write]
  | _ => []

theorem mem_writes {op : Operation} {result : Except StoreError Reply} {oid : ObjectId}
    {data : Option Bytes} (h : .object oid data ∈ op.writes result) :
    (op = .create ∧ result = .ok (.object oid)) ∧ data = some [] ∨
      .object oid .write ∈ op.objectAccesses ∧ isInData result = true := by
  have hbatch : ∀ {oids : List ObjectId} {datas : List Bytes},
      .object oid data ∈ Write.batch (oids.zip datas) →
      Access.object oid .write ∈ (setMany oids datas).objectAccesses := by
    intro oids datas hin
    obtain ⟨⟨oid', data'⟩, hitem, heq⟩ := List.mem_map.mp hin
    cases heq
    exact List.mem_map.mpr ⟨oid, (List.of_mem_zip hitem).1, rfl⟩
  cases op with
  | create =>
      rcases result with e | reply
      · cases h
      · cases reply with
        | object oid' =>
            cases List.mem_singleton.mp h
            exact Or.inl ⟨⟨rfl, rfl⟩, rfl⟩
        | _ => cases h
  | set oid' data' =>
      rcases result with e | reply
      · cases h
      · cases List.mem_singleton.mp h
        exact Or.inr ⟨List.mem_singleton_self _, rfl⟩
  | setMany oids datas =>
      rcases result with e | reply
      · cases e with
        | objectNotFound oid' =>
            refine Or.inr ⟨hbatch ?_, rfl⟩
            exact List.map_subset _ (List.takeWhile_sublist _).subset h
        | _ => cases h
      · exact Or.inr ⟨hbatch h, rfl⟩
  | remove oid' =>
      rcases result with e | reply
      · cases h
      · cases List.mem_singleton.mp h
        exact Or.inr ⟨List.mem_singleton_self _, rfl⟩
  | setBinding =>
      rcases result with e | reply
      · cases h
      · cases List.mem_singleton.mp h
  | removeBinding =>
      rcases result with e | reply
      · cases h
      · cases List.mem_singleton.mp h
  | _ => cases h

end Operation

/-- The accesses that are still to be reported after the plan has been carried out. -/
def Plan.unreported : Plan → List Access
  | .setMany oids _ => oids.map (.object · .write)
  | _ => []

namespace Stage

/-- Every access of the operation has been allowed, or is still to be reported. -/
def Cleared (op : Operation) (allowed : Access → Prop) : Stage → Prop
  | .report access plan => ∀ needed ∈ op.objectAccesses,
      needed ∈ plan.unreported ∨ needed = access ∨ allowed needed
  | .waiting _ access plan => ∀ needed ∈ op.objectAccesses,
      needed ∈ plan.unreported ∨ needed = access ∨ allowed needed
  | .act plan => ∀ needed ∈ op.objectAccesses, needed ∈ plan.unreported ∨ allowed needed
  | .failing e => isInData (.error e) = true → ∀ needed ∈ op.objectAccesses, allowed needed
  | .ended result => isInData result = true → ∀ needed ∈ op.objectAccesses, allowed needed

variable {op : Operation} {allowed allowed' : Access → Prop} {stage : Stage}

theorem Cleared.mono (h : stage.Cleared op allowed) (hmono : ∀ access, allowed access → allowed' access) :
    stage.Cleared op allowed' := by
  cases stage with
  | report => exact fun needed hin => (h needed hin).imp_right (Or.imp_right (hmono needed))
  | waiting => exact fun needed hin => (h needed hin).imp_right (Or.imp_right (hmono needed))
  | act => exact fun needed hin => (h needed hin).imp_right (hmono needed)
  | failing => exact fun hdata needed hin => hmono needed (h hdata needed hin)
  | ended => exact fun hdata needed hin => hmono needed (h hdata needed hin)

/-- Once every access has been allowed every stage is cleared. -/
theorem cleared_of_all (h : ∀ needed ∈ op.objectAccesses, allowed needed) (stage : Stage) :
    stage.Cleared op allowed := by
  cases stage with
  | report => exact fun needed hin => Or.inr (Or.inr (h needed hin))
  | waiting => exact fun needed hin => Or.inr (Or.inr (h needed hin))
  | act => exact fun needed hin => Or.inr (h needed hin)
  | failing => exact fun _ => h
  | ended => exact fun _ => h

theorem cleared_firstStage (allowed : Access → Prop) (op : Operation) :
    op.firstStage.Cleared op allowed := by
  cases op with
  | mark => exact fun _ hin => Or.inr (Or.inl (List.mem_singleton.mp hin))
  | get => exact fun _ hin => Or.inr (Or.inl (List.mem_singleton.mp hin))
  | set => exact fun _ hin => Or.inr (Or.inl (List.mem_singleton.mp hin))
  | setMany => exact fun _ hin => Or.inl hin
  | remove => exact fun _ hin => Or.inr (Or.inl (List.mem_singleton.mp hin))
  | _ => exact cleared_of_all (fun _ hin => absurd hin List.not_mem_nil) _

/-- Carrying a plan out reports the next access of a batch, or every access has been allowed. -/
theorem cleared_of_act {s : LockingStore Memory} {t : TxnId} {plan : Plan} {stage' : Stage}
    {m' : Memory} (hcleared : (act plan).Cleared op allowed)
    (h : s.act t plan = (stage', { s with backend := m' })) : stage'.Cleared op allowed := by
  have hall : plan.unreported = [] → stage'.Cleared op allowed := by
    intro hnone
    refine cleared_of_all (fun needed hin => ?_) stage'
    rcases hcleared needed hin with hunreported | hallowed
    · rw [hnone] at hunreported
      exact absurd hunreported List.not_mem_nil
    · exact hallowed
  cases plan with
  | setMany oids items =>
      cases oids with
      | nil => exact hall rfl
      | cons oid rest =>
          have hstage : Stage.report (.object oid .write) (.setMany rest items) = stage' :=
            congrArg Prod.fst h
          subst hstage
          intro needed hin
          rcases hcleared needed hin with hunreported | hallowed
          · rcases List.mem_cons.mp hunreported with hfirst | hlater
            · exact Or.inr (Or.inl hfirst)
            · exact Or.inl hlater
          · exact Or.inr (Or.inr hallowed)
  | _ => exact hall rfl

end Stage

namespace Traffic

variable {w w' : LockingTraffic Memory} {t : TxnId}

/-- What a transaction is told of objects rests on accesses that it has been allowed. -/
structure Covered (w : LockingTraffic Memory) (t : TxnId) : Prop where
  underWay : ∀ op stage, w.calls.get? t = some (.operation op stage) →
    stage.Cleared op (.accessed t · ∈ w.log)
  answered : ∀ op result, .answered t op result ∈ w.log → isInData result = true →
    ∀ needed ∈ op.objectAccesses, .accessed t needed ∈ w.log

namespace Covered

theorem new (shards : Nat) (t : TxnId) : Covered (Traffic.new shards Memory.empty) t where
  underWay := fun _ _ h => absurd h (by simp [Traffic.new])
  answered := fun _ _ h => absurd h List.not_mem_nil

/-- What has been written of an object was written by making it, or was allowed. -/
theorem created_or_accessed (h : Covered w t) {oid : ObjectId} {data : Option Bytes}
    (hin : .object oid data ∈ ledger t w.log) :
    .answered t .create (.ok (.object oid)) ∈ w.log ∧ data = some [] ∨
      .accessed t (.object oid .write) ∈ w.log := by
  obtain ⟨event, hevent, hwrite⟩ := List.mem_flatMap.mp hin
  cases event with
  | answered u op result =>
      simp only [Event.gathered] at hwrite
      split at hwrite
      · rename_i hu
        subst hu
        rcases Operation.mem_writes hwrite with ⟨⟨rfl, rfl⟩, hdata⟩ | ⟨haccess, hdata⟩
        · exact Or.inl ⟨hevent, hdata⟩
        · exact Or.inr (h.answered op result hevent hdata _ haccess)
      · exact absurd hwrite List.not_mem_nil
  | _ => exact absurd hwrite List.not_mem_nil

theorem goesOn (h : Covered w t) {events : List Event} (hlog : w'.log = w.log ++ events)
    (hanswered : ∀ op result, .answered t op result ∉ events)
    (hcall : ∀ op stage, w'.calls.get? t = some (.operation op stage) →
      stage.Cleared op (.accessed t · ∈ w'.log)) : Covered w' t where
  underWay := hcall
  answered := by
    intro op result hin hdata needed hneeded
    rw [hlog] at hin ⊢
    have hold := (List.mem_append.mp hin).resolve_right (hanswered op result)
    exact List.mem_append_left _ (h.answered op result hold hdata needed hneeded)

theorem beside (h : Covered w t) (hbeside : Beside w w' t) : Covered w' t := by
  obtain ⟨events, hlog, hanswered, -⟩ := hbeside.log
  refine h.goesOn hlog hanswered fun op stage hcall => ?_
  rw [hbeside.call] at hcall
  exact (h.underWay op stage hcall).mono fun _ => hbeside.accessed

theorem cleared_of_step (h : Covered w t) {op : Operation} {stage stage' : Stage}
    {store : LockingStore Memory} (hcall : w.calls.get? t = some (.operation op stage))
    (hstep : OperationStep w.store t stage stage' store) :
    stage'.Cleared op (.accessed t · ∈ w.log ++ Event.ofStep t op stage stage') := by
  have hcleared := (h.underWay op stage hcall).mono fun access hin =>
    List.mem_append_left (Event.ofStep t op stage stage') hin
  have hreported : ∀ {state access plan turn}, stage = .report access plan →
      Reported t state access plan turn stage' →
      stage'.Cleared op (.accessed t · ∈ w.log ++ Event.ofStep t op stage stage') := by
    rintro state access plan turn rfl hturn
    cases hturn with
    | allowed =>
        intro needed hneeded
        rcases hcleared needed hneeded with hunreported | rfl | hallowed
        · exact Or.inl hunreported
        · exact Or.inr (List.mem_append_right _ (List.mem_singleton_self _))
        · exact Or.inr hallowed
    | waiting => exact hcleared
    | timedOut => exact fun hdata => absurd hdata (by simp [isInData])
    | late e _ _ hfound =>
        intro hdata
        rw [isInData_error hfound] at hdata
        exact absurd hdata (by simp)
  cases hstep with
  | reportsObject _ hturn => exact hreported rfl hturn
  | reportsName _ hturn => exact hreported rfl hturn
  | wakes => exact hcleared
  | acts hact => exact Stage.cleared_of_act hcleared hact
  | fails => exact hcleared

theorem own (h : Covered w t) (hown : w.OwnMove t w')
    (hbegun : ∀ op stage, w.calls.get? t = none → w'.calls.get? t = some (.operation op stage) →
      stage.Begins op) : Covered w' t := by
  cases hown with
  | begins => exact ⟨h.underWay, h.answered⟩
  | @starts op stage register hfree =>
      refine ⟨?_, h.answered⟩
      intro op' stage' hcall
      rcases hbegun op' stage' hfree hcall with rfl | ⟨e, rfl, he⟩
      · exact Stage.cleared_firstStage _ op'
      · intro hdata
        rw [isInData_error he] at hdata
        exact absurd hdata (by simp)
  | participates hfree =>
      refine ⟨?_, h.answered⟩
      intro op stage hcall
      rw [FinMap.get?_insert_self] at hcall
      cases hcall
  | @operation op stage stage' store hcall hstep =>
      have hcleared := h.cleared_of_step hcall hstep
      refine ⟨?_, ?_⟩
      · intro op' stage'' hcall'
        rw [FinMap.get?_change_self] at hcall'
        obtain ⟨rfl, rfl⟩ := Call.ofStage_eq hcall'
        exact hcleared
      · intro op' result hin hdata
        rcases List.mem_append.mp hin with hold | hnew
        · exact fun needed hneeded =>
            List.mem_append_left _ (h.answered op' result hold hdata needed hneeded)
        · obtain ⟨before, rest, hevents⟩ := List.append_of_mem hnew
          obtain ⟨-, -, rfl, rfl⟩ := Event.ofStep_eq_answered hevents
          exact hcleared hdata
  | @participation call stage stage' store hcall hstep =>
      refine h.goesOn rfl (answered_not_mem_ofParticipantStep t t call · stage stage') ?_
      intro op stage'' hcall'
      rw [FinMap.get?_change_self] at hcall'
      exact absurd hcall' (Call.ofParticipantStage_ne_operation call stage' op stage'')

/-- **Whatever a transaction has been told of objects, it had been allowed to access them.** -/
theorem run (shards : Nat) (actions : List StoreAction) (t : TxnId) :
    Covered ((Traffic.new shards Memory.empty).run actions) t := by
  refine run_induction (P := fun w => Covered w t) (new shards t) (fun w a h => ?_) actions
  rcases (move_perform w a).beside_or_own t with hbeside | hown
  · exact h.beside hbeside
  · exact h.own hown fun _ _ hfree hcall => begins_of_free hfree hcall

end Covered

end Traffic

end ObjectStore
