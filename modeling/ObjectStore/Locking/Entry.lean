/-
Entries: who holds or waits for one key.

An entry records its owner's rank and deadline as they were when it was made, and the signals of
the calls that wait for it to go away or to change.
-/
import ObjectStore.Locking.Mode
import ObjectStore.Locking.Locker

namespace ObjectStore

/-- What wakes one waiting call. -/
abbrev Signal := Nat

/-- The owner of an entry and those who listen to it. -/
structure Header (L : Type) where
  owner : L
  rank : Rank
  deadline : Nat
  listeners : List Signal
  deriving DecidableEq, Repr

namespace Header

variable {L : Type}

/-- The owner's age. -/
def seniority (h : Header L) : Seniority := h.rank.seniority

/-- Whether the owner of `h` arrived after the owner of `g`. -/
def youngerThan (h g : Header L) : Bool := h.seniority.youngerThan g.seniority

/-- The deadline itself has not passed yet; one moment later it has. -/
def isExpired (h : Header L) (now : Nat) : Bool := decide (h.deadline < now)

/-- The parts by name; `ownerText` and `deadlineText` say how the two are shown. -/
def label (ownerText deadlineText : String) (h : Header L) : String :=
  s!"SeniorityHeader \x7b owner: {ownerText}, seniority: {h.seniority.label}, " ++
    s!"deadline: {deadlineText}, listeners: {h.listeners.length} \x7d"

end Header

/-- A request on a key, granted or queued. -/
structure LockEntry (L : Type) extends Header L where
  mode : LockMode
  granted : Bool
  deriving DecidableEq, Repr

namespace LockEntry

variable {L σ : Type}

/-- A new entry of a locker, to which nobody listens yet. -/
def ofRequest [Lockers σ L] (s : σ) (locker : L) (mode : LockMode) (granted : Bool) :
    LockEntry L where
  owner := locker
  rank := Lockers.rank s locker
  deadline := Lockers.deadline s locker
  listeners := []
  mode := mode
  granted := granted

/-- Whether the entry stands in the way of a request by `locker`. -/
def rivals [DecidableEq L] (locker : L) (mode : LockMode) (e : LockEntry L) : Bool :=
  decide (e.owner ≠ locker) && mode.conflictsWith e.mode

/-- The entry of the highest precedence, the first of equals. -/
def eldest : List (LockEntry L) → Option (LockEntry L)
  | [] => none
  | e :: rest =>
    match eldest rest with
    | none => some e
    | some other => some (if other.rank.before e.rank then other else e)

theorem eldest_eq_none_iff {es : List (LockEntry L)} : eldest es = none ↔ es = [] := by
  cases es with
  | nil => simp [eldest]
  | cons e rest =>
      unfold eldest
      split <;> simp

/-- The entry without those who listen to it. -/
def request (e : LockEntry L) : LockEntry L := { e with listeners := [] }

end LockEntry

end ObjectStore
