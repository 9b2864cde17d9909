/-
Several transactions on one reporter.

A report that has to wait stays in the session under the number of its transaction, and is made
again when it is due.
-/
import ObjectStore.Access.Locking
import ObjectStore.Settle

namespace ObjectStore

/-- An access that waits. -/
structure PendingAccess (K : Type) where
  key : K
  mode : LockMode
  signal : Signal
  deriving DecidableEq, Repr

/-- A reporter in use. -/
structure AccessSession (ρ K : Type) where
  now : Nat
  register : Register
  reporter : ρ
  waiting : FinMap TxnId (PendingAccess K)
  /-- The transactions that were begun, the first one first. -/
  begun : List TxnId

namespace AccessSession

variable {ρ K : Type}

/-- A reporter that nobody uses yet. -/
def new (reporter : ρ) : AccessSession ρ K := ⟨0, .empty, reporter, ∅, []⟩

/-- Lets time pass. -/
def tick (n : Nat) (s : AccessSession ρ K) : AccessSession ρ K := { s with now := s.now + n }

/-- Begins a transaction that may live for a while.  Beginning takes a moment. -/
def begin (t : TxnId) (seniority : Seniority) (lifetime : Nat) (s : AccessSession ρ K) :
    AccessSession ρ K :=
  { s with
    now := s.now + 1
    register := s.register.start t seniority (s.now + lifetime)
    begun := s.begun ++ [t] }

variable [Reporter ρ K]

/-- A transaction whose waiting access is to be reported again. -/
def due (s : AccessSession ρ K) : Option TxnId :=
  (s.waiting.pairs.find? fun (t, p) =>
    Reporter.isDue s.now (s.register.find t).deadline p.signal s.reporter).map (·.1)

/-- Reports an access.  No answer means that the transaction waits. -/
def report (t : TxnId) (key : K) (mode : LockMode) (s : AccessSession ρ K) :
    Option (Except StoreError Unit) × AccessSession ρ K :=
  let (turn, register, reporter) := Reporter.report s.now t key mode s.register s.reporter
  let s := { s with register, reporter, waiting := s.waiting.erase t }
  match turn with
  | .allowed => (some (.ok ()), s)
  | .refused e => (some (.error e), s)
  | .waiting signal => (none, { s with waiting := s.waiting.insert t ⟨key, mode, signal⟩ })

/-- Reports a waiting access again. -/
def resume (t : TxnId) (s : AccessSession ρ K) :
    Option (Except StoreError Unit) × AccessSession ρ K :=
  match s.waiting.get? t with
  | none => (none, s)
  | some p => s.report t p.key p.mode

/-- Lets waiting accesses go on until none is due. -/
def settle (s : AccessSession ρ K) :
    List (TxnId × Except StoreError Unit) × AccessSession ρ K :=
  ObjectStore.settle due resume defaultFuel s

end AccessSession

end ObjectStore
