/-
The two ways of holding a key.

Any number of lockers may read a key together; a writer is alone with it.
-/

namespace ObjectStore

/-- How a key is held or asked for. -/
inductive LockMode where
  /-- Together with other readers. -/
  | read
  /-- Alone. -/
  | write
  deriving DecidableEq, Repr

namespace LockMode

/-- Whether two lockers cannot hold a key in these modes at once. -/
def conflictsWith (a b : LockMode) : Bool := decide (a = write) || decide (b = write)

/-- The stronger of two modes. -/
def max (a b : LockMode) : LockMode := if a = write ∨ b = write then write else read

theorem conflictsWith_comm (a b : LockMode) : a.conflictsWith b = b.conflictsWith a :=
  Bool.or_comm _ _

theorem max_self (a : LockMode) : a.max a = a := by
  cases a <;> rfl

theorem max_max_self (a b : LockMode) : (a.max b).max b = a.max b := by
  cases a <;> cases b <;> rfl

theorem conflictsWith_of_max {a b held held' : LockMode} (ha : held.max a = held)
    (hb : held'.max b = held') (h : held.conflictsWith held' = false) :
    a.conflictsWith b = false := by
  revert ha hb h
  cases a <;> cases b <;> cases held <;> cases held' <;> decide

/-- The mode in messages. -/
def text : LockMode → String
  | read => "READ"
  | write => "WRITE"

/-- The mode's own name. -/
def label : LockMode → String
  | read => "Read"
  | write => "Write"

end LockMode

end ObjectStore
