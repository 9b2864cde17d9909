/-
Beginning transactions.

A coordinator numbers transactions from one.  A fresh transaction gets its seniority from the
clock; one that repeats an earlier attempt keeps the seniority of that attempt, so that its task
does not lose its place.
-/
import ObjectStore.Clock
import ObjectStore.Settings.Settings
import ObjectStore.Identifier
import ObjectStore.Locking.Seniority

namespace ObjectStore

/-- A coordinator with its clock and settings. -/
structure Coordinator (κ : Type) where
  clock : κ
  settings : TransactionSettings
  nextTxn : TxnId
  deriving Repr

namespace Coordinator

variable {κ : Type}

/-- A coordinator that has not begun any transaction. -/
def new (clock : κ) (settings : TransactionSettings) : Coordinator κ := ⟨clock, settings, ⟨1⟩⟩

/-- How many units of time there are in a millisecond. -/
def millisecond : Nat := 1000000

/-- How long its transactions live. -/
def lifetime (c : Coordinator κ) : Nat := c.settings.timeout * millisecond

/-- The seniority of an arrival at this moment. -/
def newSeniority [Clock κ] (tiebreaker : Nat) (c : Coordinator κ) : Seniority × Coordinator κ :=
  let (timestamp, clock) := Clock.read c.clock
  (⟨timestamp, tiebreaker⟩, { c with clock })

/-- The number of the next transaction. -/
def newTxn (c : Coordinator κ) : TxnId × Coordinator κ :=
  (c.nextTxn, { c with nextTxn := ⟨c.nextTxn.val + 1⟩ })

end Coordinator

end ObjectStore
