/-
The settings of the service, of transactions and of lock tables, and their defaults.

Times are in milliseconds.
-/

namespace ObjectStore

/-- How a service retries input and output. -/
structure ServiceSettings where
  /-- Retries after the first failure, before the node is reported. -/
  ioTaskMaxRetries : Nat
  /-- The pause between two attempts. -/
  ioTaskWaitTime : Nat
  deriving DecidableEq, Repr

/-- How long transactions live and how often tasks are tried again. -/
structure TransactionSettings where
  timeout : Nat
  maxTaskRetries : Nat
  deriving DecidableEq, Repr

/-- How lock tables are divided. -/
structure LockSettings where
  numShards : Nat
  deriving DecidableEq, Repr

/-- All settings. -/
structure Settings where
  service : ServiceSettings
  transaction : TransactionSettings
  lock : LockSettings
  deriving DecidableEq, Repr

namespace Settings

/-- The settings of a service that sets nothing. -/
def defaultService : ServiceSettings := ⟨5, 100⟩

/-- The settings of transactions if nothing is set. -/
def defaultTransaction : TransactionSettings := ⟨100, 10⟩

/-- The settings of lock tables if nothing is set. -/
def defaultLock : LockSettings := ⟨64⟩

/-- All defaults. -/
def default : Settings := ⟨defaultService, defaultTransaction, defaultLock⟩

/-- Sets the number of retries of an input or output task. -/
def withIoTaskMaxRetries (n : Nat) (s : Settings) : Settings :=
  { s with service := { s.service with ioTaskMaxRetries := n } }

/-- Sets the pause between attempts of an input or output task. -/
def withIoTaskWaitTime (n : Nat) (s : Settings) : Settings :=
  { s with service := { s.service with ioTaskWaitTime := n } }

/-- Sets the life time of transactions. -/
def withTimeout (n : Nat) (s : Settings) : Settings :=
  { s with transaction := { s.transaction with timeout := n } }

/-- Sets the number of retries of a task. -/
def withMaxTaskRetries (n : Nat) (s : Settings) : Settings :=
  { s with transaction := { s.transaction with maxTaskRetries := n } }

/-- Sets the number of shards. -/
def withNumShards (n : Nat) (s : Settings) : Settings :=
  { s with lock := { s.lock with numShards := n } }

end Settings

end ObjectStore
