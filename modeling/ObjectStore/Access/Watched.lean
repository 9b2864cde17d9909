/-
What can be seen of a reporter from outside, and how it is told to fail.
-/
import ObjectStore.Access.Locking
import ObjectStore.Access.Recording

namespace ObjectStore

/-- The holders of a key with their modes, and those who are queued. -/
structure LockView (L : Type) where
  holders : List (L × LockMode)
  waiters : List L
  deriving DecidableEq, Repr

/-- A key of a lock table as it is now. -/
def LockTable.view {K L : Type} [DecidableEq K] [Hashable K] (t : LockTable K L) (key : K) :
    LockView L :=
  ⟨t.holders key, t.waiters key⟩

/-- Reporters of type `ρ` that can be looked into. -/
class Watched (ρ : Type) (K : outParam Type) where
  /-- The locks on a key, if there are locks. -/
  view? : ρ → K → Option (LockView TxnId)
  /-- Whether there is no lock, if there are locks. -/
  isEmpty? : ρ → Option Bool
  /-- The log since it was last taken. -/
  takeLog : ρ → List (AccessNote K) × ρ
  /-- Sets the key whose accesses fail. -/
  setFault : Option (K × Fault) → ρ → ρ

instance {K : Type} [DecidableEq K] [Hashable K] : Watched (LockingReporter K) K where
  view? l key := some (l.table.view key)
  isEmpty? l := some l.table.isEmpty
  takeLog l := ([], l)
  setFault _ l := l

instance {K : Type} : Watched (OpenReporter K) K where
  view? _ _ := none
  isEmpty? _ := none
  takeLog l := ([], l)
  setFault _ l := l

instance {K : Type} : Watched (RecordingReporter K) K where
  view? _ _ := none
  isEmpty? _ := none
  takeLog l := (l.log, { l with log := [] })
  setFault fault l := { l with fault }

end ObjectStore
