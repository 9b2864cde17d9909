/-
What transactions have written, by the answers of their operations.

`Operation.writes` says of an operation and its answer what the operation has written, and the ledger
of a transaction is what its answers add up to.  An operation that writes a name may have to wait for
a lock between the write and the answer, which is why the draft counts answers as soon as they are
decided.

`buffers_of_act` is about the one step of an operation that calls the backend: what is added to the
buffered writes is what is added to the draft.
-/
import ObjectStore.Proofs.Backend.Buffer
import ObjectStore.Proofs.Store.Live

namespace ObjectStore

/-- What an operation has written, by its answer.  A batch that fails has written what comes before
the object that was not found. -/
def Operation.writes : Operation → Except StoreError Reply → List Write
  | .create, .ok (.object oid) => [.object oid (some [])]
  | .set oid data, .ok _ => [.object oid (some data)]
  | .setMany oids datas, .ok _ => Write.batch (oids.zip datas)
  | .setMany oids datas, .error (.objectNotFound oid) => Write.batchBefore oid (oids.zip datas)
  | .remove oid, .ok _ => [.object oid none]
  | .setBinding name oid, .ok _ => [.name name (some oid)]
  | .removeBinding name, .ok _ => [.name name none]
  | _, _ => []

/-- What a transaction has written, in order. -/
def ledger (t : TxnId) (log : List Event) : List Write := gathered Operation.writes t log

theorem ledger_append (t : TxnId) (log log' : List Event) :
    ledger t (log ++ log') = ledger t log ++ ledger t log' :=
  gathered_append log log'

/-- What an operation at a stage is bound to have written. -/
def Stage.writes (op : Operation) (stage : Stage) : List Write := stage.gathered Operation.writes op

/-- The ledger, with what the operation under way is bound to have written. -/
def draft (calls : FinMap TxnId Call) (log : List Event) (t : TxnId) : List Write :=
  pledged Operation.writes calls log t

/-- Most failures tell of no write. -/
theorem Operation.writes_error (op : Operation) {e : StoreError}
    (h : ∀ oid, e ≠ .objectNotFound oid) : op.writes (.error e) = [] := by
  cases op with
  | setMany oids datas =>
      cases e with
      | objectNotFound oid => exact absurd rfl (h oid)
      | _ => rfl
  | _ => rfl

namespace Plan

/-- Whether a plan that concerns no names can be one of the operation. -/
def Serves (op : Operation) : Plan → Prop
  | .create => op = .create
  | .mark oid => op = .mark oid
  | .get oid => ∃ forUpdate, op = .get oid forUpdate
  | .set oid data => op = .set oid data
  | .setMany _ items => ∃ oids datas, op = .setMany oids datas ∧ items = oids.zip datas
  | .remove oid => op = .remove oid
  | .classId info => op = .classId info
  | .classInfo id => op = .classInfo id
  | _ => True

end Plan

namespace Stage

/-- Whether the operation can have come to the stage, as far as it concerns no names. -/
def Serves (op : Operation) : Stage → Prop
  | .report _ plan => plan.Serves op
  | .waiting _ _ plan => plan.Serves op
  | .act plan => plan.Serves op
  | .failing _ => True
  | .ended _ => True

theorem serves_firstStage (op : Operation) : op.firstStage.Serves op := by
  cases op with
  | get oid forUpdate => exact ⟨forUpdate, rfl⟩
  | setMany oids datas => exact ⟨oids, datas, rfl, rfl⟩
  | _ => first | exact rfl | exact trivial

theorem writes_firstStage (op : Operation) : op.firstStage.writes op = [] := by
  unfold writes gathered
  rw [outcome?_firstStage]

end Stage

/-- Where a plan leads fits the same operation. -/
theorem Acted.serves {t : TxnId} {m m' : Memory} {plan : Plan} {stage' : Stage} {op : Operation}
    (h : Acted t m plan stage' m') (hserves : plan.Serves op) : stage'.Serves op := by
  cases h with
  | nextItem => exact hserves
  | @settles scan locked => cases scan.answer locked <;> exact trivial
  | @answers result => cases result <;> exact trivial
  | _ => exact trivial

/-! ### Carrying a plan out -/

section Acts

variable {s : LockingStore Memory} {t : TxnId} {plan : Plan} {stage' : Stage} {m m' : Memory}
variable {op : Operation}

/-- A call adds to the writes, whatever its answer. -/
theorem buffers_of_callThen {α : Type} {c : BackendCall α} {next : α → Stage}
    (hdata : c.isData = true) (h : s.callThen t c next = (stage', { s with backend := m' })) :
    ∃ result, Memory.Buffers t (c.writes result) s.backend m' ∧
      ((∃ a, result = .ok a ∧ stage' = next a) ∨ ∃ e, result = .error e ∧ stage' = .failing e) := by
  rcases callThen_cases h with ⟨a, hperform, rfl⟩ | ⟨e, hperform, rfl⟩
  · exact ⟨.ok a, Memory.buffers_perform hdata hperform, Or.inl ⟨a, rfl, rfl⟩⟩
  · exact ⟨.error e, Memory.buffers_perform hdata hperform, Or.inr ⟨e, rfl, rfl⟩⟩

theorem exists_buffers_of_act (h : s.act t plan = (stage', { s with backend := m' })) :
    ∃ writes, Memory.Buffers t writes s.backend m' := by
  have hcall : ∀ {α : Type} {c : BackendCall α} {next : α → Stage}, c.isData = true →
      s.callThen t c next = (stage', { s with backend := m' }) →
      ∃ writes, Memory.Buffers t writes s.backend m' := by
    intro α c next hdata hnext
    obtain ⟨result, hbuffers, -⟩ := buffers_of_callThen hdata hnext
    exact ⟨_, hbuffers⟩
  have hnone : s = { s with backend := m' } → ∃ writes, Memory.Buffers t writes s.backend m' := by
    intro hsame
    obtain rfl : s.backend = m' := congrArg Store.backend hsame
    exact ⟨[], .refl t _⟩
  cases plan with
  | setMany unreported items =>
      cases unreported with
      | nil => exact hcall rfl h
      | cons oid rest => exact hnone (congrArg Prod.snd h)
  | answer result => exact hnone (congrArg Prod.snd h)
  | _ => exact hcall rfl h

/-- A call whose answer is the answer of the operation has written what the operation says. -/
theorem buffers_of_plain {α : Type} {c : BackendCall α} {next : α → Stage} (hdata : c.isData = true)
    (hok : ∀ a, (next a).writes op = c.writes (.ok a))
    (herror : ∀ e, op.writes (.error e) = c.writes (.error e))
    (h : s.callThen t c next = (stage', { s with backend := m' })) :
    ∃ writes, Memory.Buffers t writes s.backend m' ∧ stage'.writes op = writes := by
  obtain ⟨result, hbuffers, ⟨a, rfl, rfl⟩ | ⟨e, rfl, rfl⟩⟩ := buffers_of_callThen hdata h
  · exact ⟨_, hbuffers, hok a⟩
  · exact ⟨_, hbuffers, herror e⟩

theorem buffers_of_isPlain (hplain : plan.isPlain = true) (hserves : plan.Serves op)
    (hfits : plan.Fits op) (h : s.act t plan = (stage', { s with backend := m' })) :
    ∃ writes, Memory.Buffers t writes s.backend m' ∧ stage'.writes op = writes := by
  cases plan with
  | create =>
      obtain rfl : op = .create := hserves
      exact buffers_of_plain rfl (fun _ => rfl) (fun _ => rfl) h
  | mark oid =>
      obtain rfl : op = .mark oid := hserves
      exact buffers_of_plain rfl (fun _ => rfl) (fun _ => rfl) h
  | get oid =>
      obtain ⟨forUpdate, rfl⟩ := hserves
      exact buffers_of_plain rfl (fun _ => rfl) (fun _ => rfl) h
  | set oid data =>
      obtain rfl : op = .set oid data := hserves
      exact buffers_of_plain rfl (fun _ => rfl) (fun _ => rfl) h
  | setMany unreported items =>
      obtain ⟨oids, datas, rfl, rfl⟩ := hserves
      cases unreported with
      | nil =>
          refine buffers_of_plain rfl (fun _ => rfl) (fun e => ?_) h
          cases e <;> rfl
      | cons oid rest =>
          cases acted_of_act h with
          | fails => cases h
          | plain => cases h
          | nextItem => exact ⟨[], .refl t _, rfl⟩
  | remove oid =>
      obtain rfl : op = .remove oid := hserves
      exact buffers_of_plain rfl (fun _ => rfl) (fun _ => rfl) h
  | classId info =>
      obtain rfl : op = .classId info := hserves
      exact buffers_of_plain rfl (fun _ => rfl) (fun _ => rfl) h
  | classInfo id =>
      obtain rfl : op = .classInfo id := hserves
      exact buffers_of_plain rfl (fun _ => rfl) (fun _ => rfl) h
  | nextObject after =>
      obtain rfl : op = .nextObject after := hfits
      refine buffers_of_plain rfl (fun next => ?_) (fun _ => rfl) h
      cases next <;> rfl
  | _ => cases hplain

theorem Acted.buffers (h : Acted t m plan stage' m') (hplain : plan.isPlain = false)
    (hfits : plan.Fits op) (hopen : m.isShutDown = false) :
    ∃ writes, Memory.Buffers t writes m m' ∧
      stage'.writes op = (Stage.act plan).writes op ++ writes := by
  have hnothing : stage'.writes op = (Stage.act plan).writes op → m' = m →
      ∃ writes, Memory.Buffers t writes m m' ∧
        stage'.writes op = (Stage.act plan).writes op ++ writes := by
    rintro hsame rfl
    exact ⟨[], .refl t _, by rw [hsame, List.append_nil]⟩
  have hwrites : ∀ {name oid}, stage'.writes op = (Stage.act plan).writes op ++ [.name name oid] →
      m' = m.write t (·.writeName name oid) →
      ∃ writes, Memory.Buffers t writes m m' ∧
        stage'.writes op = (Stage.act plan).writes op ++ writes := by
    rintro name oid hsame rfl
    exact ⟨[.name name oid], .write (.name name oid) t m, hsame⟩
  cases h with
  | fails _ hwhy =>
      rcases hwhy with ⟨hshut, -⟩ | hplain'
      · exact absurd (hopen.symm.trans hshut) (by simp)
      · exact absurd (hplain.symm.trans hplain') (by simp)
  | plain _ hplain' => exact absurd (hplain.symm.trans hplain') (by simp)
  | nextItem => cases hplain
  | nextObject => cases hplain
  | found =>
      obtain rfl := hfits
      exact hnothing rfl rfl
  | missed =>
      obtain rfl := hfits
      exact hnothing rfl rfl
  | rebinds =>
      obtain rfl := hfits
      exact hwrites rfl rfl
  | binds _ _ hwrite =>
      obtain rfl := hfits
      exact hwrites rfl hwrite
  | unbinds _ _ hwrite =>
      obtain rfl := hfits
      exact hwrites rfl hwrite
  | foundUnbound =>
      obtain rfl := hfits
      exact hnothing rfl rfl
  | scans =>
      obtain rfl := hfits
      exact hnothing rfl rfl
  | @settles scan locked =>
      refine hnothing ?_ rfl
      cases scan with
      | removal name wasBound => cases wasBound <;> rfl
      | next after =>
          obtain rfl := hfits
          rfl
  | @again scan =>
      refine hnothing ?_ rfl
      cases scan <;> rfl
  | @answers result =>
      refine hnothing ?_ rfl
      cases result <;> rfl

/-- **What carrying a plan out adds to the writes it adds to the draft.** -/
theorem buffers_of_act (hserves : plan.Serves op) (hfits : plan.Fits op)
    (hopen : s.backend.isShutDown = false)
    (h : s.act t plan = (stage', { s with backend := m' })) :
    ∃ writes, Memory.Buffers t writes s.backend m' ∧
      stage'.writes op = (Stage.act plan).writes op ++ writes := by
  cases hplain : plan.isPlain with
  | true =>
      have hundecided : (Stage.act plan).writes op = [] := by
        cases plan <;> first | rfl | cases hplain
      rw [hundecided]
      exact buffers_of_isPlain hplain hserves hfits h
  | false => exact (acted_of_act h).buffers hplain hfits hopen

end Acts

/-! ### Operations that begin -/

/-- An operation begins at its first stage, or is refused for a reason that is not the data. -/
def Stage.Begins (op : Operation) (stage : Stage) : Prop :=
  stage = op.firstStage ∨ ∃ e, stage = .failing e ∧ ∀ oid, e ≠ .objectNotFound oid

/-- An operation that has just begun has written nothing. -/
theorem Stage.Begins.writes {op : Operation} {stage : Stage} (h : stage.Begins op) :
    stage.writes op = [] := by
  rcases h with rfl | ⟨e, rfl, he⟩
  · exact Stage.writes_firstStage op
  · exact op.writes_error he

theorem Store.begins_start (s : LockingStore Memory) (t : TxnId) (op : Operation) :
    (s.start t op).1.Begins op := by
  unfold start
  split
  · rename_i e hrefusal
    refine Or.inr ⟨e, rfl, fun oid hoid => ?_⟩
    rw [hoid] at hrefusal
    cases op <;> simp [Operation.refusal?] at hrefusal
  · simp only [checkActive, updateTxn]
    have hanswer : (s.register.update t (·.checkActive s.now)).1 =
        ((s.register.find t).checkActive s.now).1 := rfl
    rw [hanswer]
    rcases Txn.checkActive_cases s.now (s.register.find t) with ⟨hok, -⟩ | ⟨cause, herror⟩ | ⟨hlate, -⟩
    · rw [hok]
      exact Or.inl rfl
    · rw [herror]
      exact Or.inr ⟨_, rfl, by simp⟩
    · rw [hlate]
      exact Or.inr ⟨_, rfl, by simp⟩

namespace Traffic

variable {w : LockingTraffic Memory} {t : TxnId}

/-- Nothing but an action that begins an operation leaves one where there was no call. -/
theorem begins_of_free {a : StoreAction} {op : Operation} {stage : Stage}
    (hfree : w.calls.get? t = none)
    (hcall : (w.perform a).calls.get? t = some (.operation op stage)) : stage.Begins op := by
  have hnone : w.calls.get? t = some (.operation op stage) → stage.Begins op :=
    fun hc => absurd (hfree.symm.trans hc) (by simp)
  unfold perform at hcall
  cases a with
  | operate u op' =>
      simp only at hcall
      split at hcall
      · rw [FinMap.get?_insert] at hcall
        split at hcall
        · cases hcall
          exact w.store.begins_start u op
        · exact hnone hcall
      · exact hnone hcall
  | participate u call =>
      simp only at hcall
      split at hcall
      · rw [FinMap.get?_insert] at hcall
        split at hcall
        · cases hcall
        · exact hnone hcall
      · exact hnone hcall
  | proceed u =>
      -- The call that proceeds is that of another transaction.
      have hne : ∀ {call}, w.calls.get? u = some call → u ≠ t := by
        rintro call hc rfl
        exact absurd (hfree.symm.trans hc) (by simp)
      simp only at hcall
      split at hcall
      · exact hnone hcall
      · rename_i hc
        split at hcall
        · simp only [proceedOperation, FinMap.get?_change, if_neg (hne hc)] at hcall
          exact hnone hcall
        · exact hnone hcall
      · rename_i hc
        split at hcall
        · simp only [proceedParticipation, FinMap.get?_change, if_neg (hne hc)] at hcall
          exact hnone hcall
        · exact hnone hcall
  | begin =>
      simp only at hcall
      split at hcall <;> exact hnone hcall
  | cancel =>
      simp only at hcall
      split at hcall <;> exact hnone hcall
  | wound =>
      simp only at hcall
      split at hcall <;> exact hnone hcall
  | describe => exact hnone hcall
  | tick => exact hnone hcall
  | shutdown => exact hnone hcall

end Traffic

end ObjectStore
