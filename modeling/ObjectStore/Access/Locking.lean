/-
The reporter that turns every access into a lock.

A wait that comes to its deadline aborts the transaction.  The message names the resource, the
transaction in the way and the key, which is described in the words of that transaction if it has
any, else in the words of the one that waited, else by itself.
-/
import ObjectStore.Access.Reporter
import ObjectStore.Naming.Name

namespace ObjectStore

/-- Keys that can be shown in messages. -/
class Labelled (K : Type) where
  label : K → String

instance : Labelled ObjectId := ⟨ObjectId.label⟩

instance : Labelled NameKey := ⟨fun key => Text.quote key.text⟩

/-- A lock table for one kind of resource, and the descriptions of its keys. -/
structure LockingReporter (K : Type) where
  source : String
  table : LockTable K TxnId
  descriptions : FinMap (TxnId × K) String

namespace LockingReporter

variable {K : Type}

/-- A reporter for a resource, with its lock table in a number of shards. -/
def named (source : String) (shards : Nat) : LockingReporter K :=
  ⟨source, .ofShards shards, ∅⟩

variable [DecidableEq K]

/-- What a transaction has said of a key. -/
def descriptionBy? (t : TxnId) (key : K) (l : LockingReporter K) : Option String :=
  l.descriptions.get? (t, key)

/-- The description of a key: the holder's, else that of the transaction, else the key itself. -/
def keyText [Labelled K] (holder : Option TxnId) (t : TxnId) (key : K) (l : LockingReporter K) :
    String :=
  ((holder.bind (l.descriptionBy? · key)).or (l.descriptionBy? t key)).getD (Labelled.label key)

/-- The failure of a transaction whose lock call ended without the lock. -/
def failure [Labelled K] (r : Register) (t : TxnId) (key : K) (l : LockingReporter K) :
    LockError TxnId → StoreError
  | .timeout holder => .aborted t (.conflict l.source (l.keyText holder t key) holder)
  | .notActive =>
    match (r.find t).cause with
    | some cause => .aborted t cause
    | none => .notActive t none

variable [Hashable K]

/-- Reports an access: one turn of a lock call. -/
def report [Labelled K] (now : Nat) (t : TxnId) (key : K) (mode : LockMode) (r : Register)
    (l : LockingReporter K) : AccessTurn × Register × LockingReporter K :=
  let (turn, r, table) := l.table.turn now (r.find t).deadline t key mode r
  let l := { l with table }
  match turn with
  | .granted => (.allowed, r, l)
  | .waiting signal => (.waiting signal, r, l)
  | .failed e => (.refused (l.failure r t key e), r, l)

/-- Attaches a description to a key. -/
def describe (t : TxnId) (key : K) (text : String) (l : LockingReporter K) : LockingReporter K :=
  { l with descriptions := l.descriptions.insert (t, key) text }

/-- Forgets what a transaction has said of keys. -/
def forget (t : TxnId) (l : LockingReporter K) : LockingReporter K :=
  { l with descriptions := l.descriptions.filter fun (owner, _) _ => decide (owner ≠ t) }

/-- Releases every lock of a transaction and forgets its descriptions. -/
def finish (t : TxnId) (l : LockingReporter K) : LockingReporter K :=
  { l with table := l.table.releaseAll t }.forget t

instance [Labelled K] : Reporter (LockingReporter K) K where
  report := report
  isDue now deadline signal l := l.table.isDue now deadline signal
  describe := describe
  finish := finish

end LockingReporter

end ObjectStore
