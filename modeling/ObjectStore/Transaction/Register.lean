/-
The register of transactions.

All lock tables and the store share it: whoever changes the status of a transaction changes it
here.  It makes transactions lockers.
-/
import ObjectStore.FinMap
import ObjectStore.Transaction.Status

namespace ObjectStore

/-- Every transaction that has begun. -/
structure Register where
  txns : FinMap TxnId Txn
  deriving Repr

namespace Register

/-- The register before the first transaction. -/
def empty : Register := ⟨∅⟩

/-- Stands for a transaction that never began: it has ended without a cause. -/
def unknown (id : TxnId) : Txn := { Txn.start id ⟨0, 0⟩ 0 with state := .aborted }

/-- The transaction of a number. -/
def find (r : Register) (id : TxnId) : Txn := (r.txns.get? id).getD (unknown id)

/-- Puts a transaction in place. -/
def put (r : Register) (t : Txn) : Register := ⟨r.txns.insert t.id t⟩

theorem find_put (r : Register) (t : Txn) (id : TxnId) :
    (r.put t).find id = if t.id = id then t else r.find id := by
  unfold find put
  rw [FinMap.get?_insert]
  split <;> rfl

/-- Enters a new transaction. -/
def start (r : Register) (id : TxnId) (seniority : Seniority) (deadline : Nat) : Register :=
  r.put (.start id seniority deadline)

/-- Changes the status of a transaction by a function that also answers. -/
def update {α : Type} (r : Register) (id : TxnId) (f : Txn → α × Txn) : α × Register :=
  let (a, t) := f (r.find id)
  (a, ⟨r.txns.insert id t⟩)

theorem find_update {α : Type} (r : Register) (id : TxnId) (f : Txn → α × Txn) (id' : TxnId) :
    (r.update id f).2.find id' = if id = id' then (f (r.find id)).2 else r.find id' := by
  unfold find update
  simp only [FinMap.get?_insert]
  split <;> rfl

/-- Aborts a transaction for a cause, as an operation does that fails with an abort. -/
def abort (r : Register) (id : TxnId) (cause : AbortCause) : Register :=
  (r.update id (·.abort cause)).2

/-- Aborts the transaction if a failure asks for that. -/
def noteFailure (r : Register) (id : TxnId) : StoreError → Register
  | .aborted _ cause => r.abort id cause
  | _ => r

instance : Lockers Register TxnId where
  seniority r id := (r.find id).seniority
  ordinal _ id := id.val
  deadline r id := (r.find id).deadline
  isActive r id := (r.find id).isActive
  wound r id reason := r.update id (·.wound reason)

end Register

end ObjectStore
