/-
A reporter that only keeps a log, and fails the accesses to one key if it is told to.
-/
import ObjectStore.Access.Reporter

namespace ObjectStore

/-- A line of the log. -/
inductive AccessNote (K : Type) where
  | accessed (t : TxnId) (key : K) (mode : LockMode)
  | described (t : TxnId) (key : K) (text : String)
  | finished (t : TxnId)
  deriving DecidableEq, Repr

/-- The log, and the key whose accesses fail. -/
structure RecordingReporter (K : Type) where
  log : List (AccessNote K)
  fault : Option (K × Fault)

namespace RecordingReporter

variable {K : Type}

/-- An empty log. -/
def empty : RecordingReporter K := ⟨[], none⟩

/-- Adds a line. -/
def note (n : AccessNote K) (l : RecordingReporter K) : RecordingReporter K :=
  { l with log := l.log ++ [n] }

/-- Reports an access.  One that fails is not logged. -/
def report [DecidableEq K] (t : TxnId) (key : K) (mode : LockMode) (l : RecordingReporter K) :
    AccessTurn × RecordingReporter K :=
  match l.fault with
  | some (bad, fault) =>
    if key = bad then (.refused (fault t), l) else (.allowed, l.note (.accessed t key mode))
  | none => (.allowed, l.note (.accessed t key mode))

instance [DecidableEq K] : Reporter (RecordingReporter K) K where
  report _ t key mode r l := let (turn, l) := l.report t key mode; (turn, r, l)
  isDue _ _ _ _ := false
  describe t key text l := l.note (.described t key text)
  finish t l := l.note (.finished t)

end RecordingReporter

end ObjectStore
