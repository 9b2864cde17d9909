/-
Who goes first.

A seniority is the moment of a first arrival and a tiebreaker for arrivals at the same moment; the
smaller pair is the older one.  A rank adds the locker's own number, so that two different lockers
are never left equal.  Both orders are lexicographic.
-/
import ObjectStore.Text.Quoted

namespace ObjectStore

/-- The age of a request: the smaller, the older. -/
structure Seniority where
  timestamp : Nat
  tiebreaker : Nat
  deriving DecidableEq, Repr

namespace Seniority

/-- Whether `a` arrived before `b`. -/
def olderThan (a b : Seniority) : Bool :=
  decide (a.timestamp < b.timestamp) ||
    (decide (a.timestamp = b.timestamp) && decide (a.tiebreaker < b.tiebreaker))

/-- Whether `a` arrived after `b`. -/
def youngerThan (a b : Seniority) : Bool := b.olderThan a

/-- The oldest first; equal ones stay in order. -/
def sort (l : List Seniority) : List Seniority := l.mergeSort fun a b => !b.olderThan a

/-- The moment in decimal and the tiebreaker in sixteen hexadecimal digits. -/
def text (s : Seniority) : String :=
  s!"{s.timestamp}." ++ String.ofList (Text.hexPadded 16 s.tiebreaker)

/-- The two parts by name. -/
def label (s : Seniority) : String :=
  s!"Seniority \x7b timestamp: {s.timestamp}, tiebreaker: {s.tiebreaker} \x7d"

end Seniority

/-- The place of a locker among all others. -/
structure Rank where
  seniority : Seniority
  ordinal : Nat
  deriving DecidableEq, Repr

/-- Whether `a` has precedence over `b`. -/
def Rank.before (a b : Rank) : Bool :=
  a.seniority.olderThan b.seniority ||
    (decide (a.seniority = b.seniority) && decide (a.ordinal < b.ordinal))

end ObjectStore
