/-
What a lock table knows about those who lock.

A table decides between lockers but does not own them: their state `σ` may be shared with other
tables, and a locker can be asked to give up, which it may refuse.
-/
import ObjectStore.Locking.Seniority

namespace ObjectStore

/-- Why a locker is asked to give up. -/
inductive WoundReason (L : Type) where
  /-- An older locker wants a key in a mode that conflicts. -/
  | outranked (elder : L)
  /-- The deadline recorded with its entry has passed. -/
  | expired
  deriving DecidableEq, Repr

/-- Lockers of type `L` whose states are kept in `σ`. -/
class Lockers (σ : Type) (L : outParam Type) where
  /-- The age by which conflicts are decided. -/
  seniority : σ → L → Seniority
  /-- A number that tells lockers of equal age apart. -/
  ordinal : σ → L → Nat
  /-- The moment after which its entries may be taken away and its waits end. -/
  deadline : σ → L → Nat
  /-- Whether it can still acquire keys. -/
  isActive : σ → L → Bool
  /-- Asks it to give up; the answer is whether it did. -/
  wound : σ → L → WoundReason L → Bool × σ

/-- A locker's rank. -/
def Lockers.rank {σ L : Type} [Lockers σ L] (s : σ) (locker : L) : Rank :=
  ⟨Lockers.seniority s locker, Lockers.ordinal s locker⟩

/-- Why a lock call ended without the lock. -/
inductive LockError (L : Type) where
  /-- The deadline came first; `holder` was in the way. -/
  | timeout (holder : Option L)
  /-- The locker has given up or finished. -/
  | notActive
  deriving DecidableEq, Repr

/-- What the error says, given how a locker is shown. -/
def LockError.message {L : Type} (text : L → String) : LockError L → String
  | timeout holder => s!"lock wait timed out, conflicting with {Text.optional text holder}"
  | notActive => "locker is no longer active"

end ObjectStore
