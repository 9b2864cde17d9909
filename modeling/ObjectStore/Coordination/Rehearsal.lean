/-
A participant that commits and aborts nothing.

It keeps a log of the calls made to it and of the state in which it found each transaction, changes
no status, and fails where it is told to.
-/
import ObjectStore.Coordination.Run
import ObjectStore.Settle

namespace ObjectStore

/-- A participant call that was made: what was asked, and the transaction as it was then. -/
structure RehearsalNote where
  call : ParticipantCall
  txn : Txn
  deriving DecidableEq, Repr

/-- Transactions, the log, and what becomes of the commits and aborts to come. -/
structure Rehearsal where
  now : Nat
  register : Register
  log : List RehearsalNote
  commits : List (Option Fault)
  aborts : List (Option Fault)

namespace Rehearsal

/-- A participant that has not been called. -/
def new : Rehearsal := ⟨0, .empty, [], [], []⟩

/-- Begins a transaction.  Beginning takes a moment. -/
def begin (t : TxnId) (seniority : Seniority) (lifetime : Nat) (s : Rehearsal) : Rehearsal :=
  { s with now := s.now + 1, register := s.register.start t seniority (s.now + lifetime) }

/-- Changes the status of a transaction by a function that also answers. -/
def updateTxn {α : Type} (t : TxnId) (f : Txn → α × Txn) (s : Rehearsal) : α × Rehearsal :=
  let (a, register) := s.register.update t f
  (a, { s with register })

/-- What becomes of a call, given what is to become of the calls to come. -/
def outcome (t : TxnId) (coming : List (Option Fault)) : Except StoreError Reply :=
  match coming with
  | some fault :: _ => .error (fault t)
  | _ => .ok .done

/-- Makes a participant call. -/
def participate (t : TxnId) (call : ParticipantCall) (s : Rehearsal) :
    Except StoreError Reply × Rehearsal :=
  let s := { s with log := s.log ++ [⟨call, s.register.find t⟩] }
  match call with
  | .commit | .prepareAndCommit => (outcome t s.commits, { s with commits := s.commits.tail })
  | .abort => (outcome t s.aborts, { s with aborts := s.aborts.tail })
  | .prepare => (.ok (.readOnly false), s)

instance : TaskHost Rehearsal where
  begin := begin
  find t s := s.register.find t
  describe _ _ _ s := s
  cancel t cause := updateTxn t (·.abort cause)
  check t s := s.updateTxn t (·.checkActive s.now)
  start _ _ s := (.ended (.error (.internal "nothing is stored here")), s)
  step _ stage s := (stage, s)
  canStep _ _ _ := false
  participate := participate

end Rehearsal

/-- A coordinator in use with such a participant. -/
structure RehearsalSession (κ : Type) where
  coordinator : Coordinator κ
  host : Rehearsal
  /-- The seniority of the transaction begun last, except those of runs. -/
  last : Option Seniority

namespace RehearsalSession

variable {κ : Type} [Clock κ]

/-- A coordinator that nobody uses yet. -/
def new (c : Coordinator κ) : RehearsalSession κ := ⟨c, .new, none⟩

/-- Begins a transaction with a new seniority or a given one; answers when it began, too. -/
def begin (tiebreaker : Nat) (given : Option Seniority) (s : RehearsalSession κ) :
    Txn × Nat × RehearsalSession κ :=
  let (seniority, c) :=
    match given with
    | some seniority => (seniority, s.coordinator)
    | none => s.coordinator.newSeniority tiebreaker
  let (t, c) := c.newTxn
  let host := s.host.begin t seniority c.lifetime
  (host.register.find t, s.host.now, ⟨c, host, some seniority⟩)

/-- Runs a task to its end, given what becomes of its commits and aborts.  The log begins anew. -/
def run {V : Type} (tiebreaker : Nat) (task : Task V) (commits aborts : List (Option Fault))
    (s : RehearsalSession κ) : Run V × RehearsalSession κ :=
  let (seniority, c) := s.coordinator.newSeniority tiebreaker
  let host := { s.host with commits, aborts, log := [] }
  let (r, c, host) := (Run.new task seniority c.settings c.lifetime).advance defaultFuel c host
  (r, { s with coordinator := c, host })

end RehearsalSession

end ObjectStore
