/-
Several calls on one lock table.

A session holds the lockers, the table and the calls that wait.  A new call takes its first turn at
once; if it has to wait it stays in the session, and takes its next turn when it is due.
-/
import ObjectStore.Locking.Turn
import ObjectStore.Settle

namespace ObjectStore

/-- A lock call that waits.  Its deadline is the one its locker had when the call began. -/
structure LockCall (K L : Type) where
  locker : L
  key : K
  mode : LockMode
  deadline : Nat
  signal : Signal
  deriving DecidableEq, Repr

/-- A lock table in use.  Waiting calls are known by a number of their own. -/
structure LockSession (K L σ : Type) where
  now : Nat
  lockers : σ
  table : LockTable K L
  waiting : FinMap Nat (LockCall K L)

namespace LockSession

variable {K L σ : Type}

/-- How a lock call ends. -/
abbrev Outcome (L : Type) := Except (LockError L) Unit

/-- Whether the call of a number waits. -/
def isWaiting (call : Nat) (s : LockSession K L σ) : Bool := s.waiting.contains call

/-- The number of a waiting call that may take its next turn. -/
def due (s : LockSession K L σ) : Option Nat :=
  (s.waiting.pairs.find? fun (_, c) => s.table.isDue s.now c.deadline c.signal).map (·.1)

variable [DecidableEq K] [Hashable K] [DecidableEq L] [Lockers σ L]

/-- Takes one turn of a call.  No answer means that the call waits. -/
def takeTurn (call : Nat) (locker : L) (key : K) (mode : LockMode) (deadline : Nat)
    (s : LockSession K L σ) : Option (Outcome L) × LockSession K L σ :=
  let (turn, lockers, table) := s.table.turn s.now deadline locker key mode s.lockers
  let s := { s with lockers, table, waiting := s.waiting.erase call }
  match turn with
  | .granted => (some (.ok ()), s)
  | .failed e => (some (.error e), s)
  | .waiting signal =>
    (none, { s with waiting := s.waiting.insert call ⟨locker, key, mode, deadline, signal⟩ })

/-- Begins a lock call. -/
def lock (call : Nat) (locker : L) (key : K) (mode : LockMode) (s : LockSession K L σ) :
    Option (Outcome L) × LockSession K L σ :=
  s.takeTurn call locker key mode (Lockers.deadline s.lockers locker)

/-- The next turn of a waiting call. -/
def resume (call : Nat) (s : LockSession K L σ) : Option (Outcome L) × LockSession K L σ :=
  match s.waiting.get? call with
  | none => (none, s)
  | some c => s.takeTurn call c.locker c.key c.mode c.deadline

/-- Lets waiting calls go on until none is due. -/
def settle (s : LockSession K L σ) : List (Nat × Outcome L) × LockSession K L σ :=
  ObjectStore.settle due resume defaultFuel s

/-- A single attempt that neither waits nor queues. -/
def tryLock (locker : L) (key : K) (mode : LockMode) (s : LockSession K L σ) :
    Except (LockError L) (LockAnswer K L) × LockSession K L σ :=
  let (answer, lockers, table) := s.table.tryLock s.now locker key mode s.lockers
  (answer, { s with lockers, table })

/-- Takes the locker's entry on a key away; says whether there was one. -/
def release (locker : L) (key : K) (s : LockSession K L σ) : Bool × LockSession K L σ :=
  let (found, table) := s.table.release locker key
  (found, { s with table })

/-- Takes every entry of a locker away. -/
def releaseAll (locker : L) (s : LockSession K L σ) : LockSession K L σ :=
  { s with table := s.table.releaseAll locker }

end LockSession

end ObjectStore
