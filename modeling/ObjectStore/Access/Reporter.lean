/-
Reporting accesses.

Before a transaction touches an object or a name, the store reports the access.  A reporter lets it
pass, lets it wait, or refuses it; it may change the status of transactions on the way.
-/
import ObjectStore.Transaction.Register
import ObjectStore.Locking.Turn

namespace ObjectStore

/-- What comes of reporting an access once. -/
inductive AccessTurn where
  | allowed
  /-- The access is to be reported again when the signal is given or the deadline comes. -/
  | waiting (signal : Signal)
  | refused (error : StoreError)
  deriving DecidableEq, Repr

/-- Reporters of type `ρ` for accesses to keys of type `K`. -/
class Reporter (ρ : Type) (K : outParam Type) where
  /-- Reports that a transaction is about to access a key. -/
  report : (now : Nat) → TxnId → K → LockMode → Register → ρ → AccessTurn × Register × ρ
  /-- Whether an access that waits for a signal until a deadline is to be reported again. -/
  isDue : (now deadline : Nat) → Signal → ρ → Bool
  /-- Attaches a description to a key, for messages. -/
  describe : TxnId → K → String → ρ → ρ
  /-- Notes that a transaction has committed or aborted. -/
  finish : TxnId → ρ → ρ

/-- The reporter that lets every access pass. -/
structure OpenReporter (K : Type) where
  deriving DecidableEq, Repr

instance {K : Type} : Reporter (OpenReporter K) K where
  report _ _ _ _ r o := (.allowed, r, o)
  isDue _ _ _ _ := false
  describe _ _ _ o := o
  finish _ o := o

end ObjectStore
