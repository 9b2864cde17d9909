/-
Several callers on one store.

A session holds the store, with or without a lifecycle around it, a coordinator, and the calls that
have not ended: operations, runs of tasks, and shutdowns.  Each is known by the name of its caller.
`settle` lets them go on until every one has ended or waits; the worker that tears the service down
takes its turn among them.
-/
import ObjectStore.Coordination.Run
import ObjectStore.Service.StoreService
import ObjectStore.Settle

namespace ObjectStore

/-- The name of a caller. -/
abbrev Caller := String

/-- A call that has not ended. -/
inductive PendingCall (V : Type) where
  | operation (t : TxnId) (stage : Stage)
  | run (run : Run V)
  | shutdown (turn : ShutdownTurn)

/-- An attempt of a run: its transaction as it was left, and the replies to its task. -/
structure AttemptReport where
  txn : Txn
  history : TaskHistory

/-- How a run ended, and its attempts. -/
structure RunReport (V : Type) where
  result : Except StoreError V
  attempts : List AttemptReport

/-- The report of a run that has ended. -/
def RunReport.ofRun {V σ : Type} [TaskHost σ] (result : Except StoreError V) (r : Run V) (s : σ) :
    RunReport V where
  result := result
  attempts := r.attempts.map fun (t, history) => ⟨TaskHost.find t s, history⟩

/-- The answer to a call. -/
inductive CallAnswer (V : Type) where
  | operation (result : Except StoreError Reply)
  | run (report : RunReport V)
  | shutdown (outcome : ShutdownOutcome)

/-- A store in use. -/
structure Session (ρo ρn β κ V : Type) where
  service : StoreService ρo ρn β
  coordinator : Coordinator κ
  calls : List (Caller × PendingCall V)
  /-- The transactions that were begun, except those of runs; the first one first. -/
  begun : List TxnId

namespace Session

variable {ρo ρn β κ V : Type}

/-- A store that nobody uses yet. -/
def new (service : StoreService ρo ρn β) (coordinator : Coordinator κ) : Session ρo ρn β κ V :=
  ⟨service, coordinator, [], []⟩

/-- Whether a caller has a call that has not ended. -/
def isBusy (caller : Caller) (s : Session ρo ρn β κ V) : Bool := s.calls.any (·.1 = caller)

/-- The callers whose calls have not ended, in order. -/
def blocked (s : Session ρo ρn β κ V) : List Caller := Text.sort (s.calls.map (·.1))

/-- Adds a call. -/
def issue (caller : Caller) (call : PendingCall V) (s : Session ρo ρn β κ V) :
    Session ρo ρn β κ V :=
  { s with calls := s.calls ++ [(caller, call)] }

/-- Puts a call in the place of the caller's last one. -/
def replace (caller : Caller) (call : PendingCall V) (s : Session ρo ρn β κ V) :
    Session ρo ρn β κ V :=
  { s with calls := s.calls.map fun (c, old) => if c = caller then (c, call) else (c, old) }

/-- Takes a call out. -/
def withdraw (caller : Caller) (s : Session ρo ρn β κ V) : Session ρo ρn β κ V :=
  { s with calls := s.calls.filter (·.1 ≠ caller) }

/-- Applies a function to the store. -/
def onStore {α : Type} (f : Store ρo ρn β → α × Store ρo ρn β) (s : Session ρo ρn β κ V) :
    α × Session ρo ρn β κ V :=
  let (a, service) := s.service.onStore f
  (a, { s with service })

/-- Lets time pass. -/
def tick (n : Nat) (s : Session ρo ρn β κ V) : Session ρo ρn β κ V :=
  (s.onStore fun store => ((), store.tick n)).2

/-- Begins a transaction. -/
def begin (t : TxnId) (seniority : Seniority) (lifetime : Nat) (s : Session ρo ρn β κ V) :
    Session ρo ρn β κ V :=
  { s with service := s.service.begin t seniority lifetime, begun := s.begun ++ [t] }

/-- Begins a transaction by the coordinator, with a new seniority or a given one. -/
def coordinate [Clock κ] (tiebreaker : Nat) (seniority : Option Seniority)
    (s : Session ρo ρn β κ V) : TxnId × Seniority × Session ρo ρn β κ V :=
  let (fresh, c) :=
    match seniority with
    | some given => (given, s.coordinator)
    | none => s.coordinator.newSeniority tiebreaker
  let (t, c) := c.newTxn
  (t, fresh, { s with coordinator := c }.begin t fresh c.lifetime)

/-- Begins a run of a task. -/
def run [Clock κ] (caller : Caller) (tiebreaker : Nat) (task : Task V) (s : Session ρo ρn β κ V) :
    Session ρo ρn β κ V :=
  let (seniority, c) := s.coordinator.newSeniority tiebreaker
  { s with coordinator := c }.issue caller (.run (.new task seniority c.settings c.lifetime))

/-- Begins a shutdown of the service. -/
def shutDown (caller : Caller) (s : Session ρo ρn β κ V) : Session ρo ρn β κ V :=
  match s.service.lifecycle with
  | none => s
  | some l =>
    let (turn, l) := l.beginShutdown
    { s with service := { s.service with lifecycle := some l } }.issue caller (.shutdown turn)

variable [Reporter ρo ObjectId] [Reporter ρn NameKey] [Backend β]

/-- Begins an operation. -/
def operate (caller : Caller) (t : TxnId) (op : Operation) (s : Session ρo ρn β κ V) :
    Session ρo ρn β κ V :=
  let (stage, service) := s.service.start t op
  { s with service }.issue caller (.operation t stage)

/-- Performs an operation that never waits. -/
def perform (t : TxnId) (op : Operation) (s : Session ρo ρn β κ V) :
    Except StoreError Reply × Session ρo ρn β κ V :=
  let (stage, service) := s.service.start t op
  let (stage, service) := service.advance defaultFuel t stage
  (stage.result, { s with service })

/-- Makes a participant call. -/
def participate (t : TxnId) (call : ParticipantCall) (s : Session ρo ρn β κ V) :
    Except StoreError Reply × Session ρo ρn β κ V :=
  s.onStore (·.participate t call)

/-! ### Going on -/

/-- Whether a call can go on, or has ended and not been answered yet. -/
def isDue (call : PendingCall V) (s : Session ρo ρn β κ V) : Bool :=
  match call with
  | .operation _ (.ended _) => true
  | .operation t stage => s.service.store.canStep t stage
  | .run r =>
    match r.stage with
    | .ended _ => true
    | _ => r.canStep s.service
  | .shutdown (.ended _) => true
  | .shutdown (.waiting w) => s.service.lifecycle.any (·.isAwake w)

/-- Who may go on: the worker, or a caller. -/
inductive Mover where
  | worker
  | caller (name : Caller)

/-- Somebody who can go on. -/
def due (s : Session ρo ρn β κ V) : Option Mover :=
  if s.service.lifecycle.any (·.teardown = .started) then some .worker
  else (s.calls.find? fun (_, call) => s.isDue call).map fun (name, _) => .caller name

/-- Answers a call. -/
def answer (caller : Caller) (a : CallAnswer V) (s : Session ρo ρn β κ V) :
    Option (CallAnswer V) × Session ρo ρn β κ V :=
  (some a, s.withdraw caller)

/-- Lets a call go on until it has ended or waits. -/
def goOn (caller : Caller) (call : PendingCall V) (s : Session ρo ρn β κ V) :
    Option (CallAnswer V) × Session ρo ρn β κ V :=
  match call with
  | .operation t stage =>
    let (stage, service) := s.service.advance defaultFuel t stage
    let s := { s with service }
    match stage with
    | .ended result => s.answer caller (.operation result)
    | stage => (none, s.replace caller (.operation t stage))
  | .run r =>
    let (r, coordinator, service) := r.advance defaultFuel s.coordinator s.service
    let s := { s with coordinator, service }
    match r.stage with
    | .ended result => s.answer caller (.run (.ofRun result r service))
    | _ => (none, s.replace caller (.run r))
  | .shutdown (.ended outcome) => s.answer caller (.shutdown outcome)
  | .shutdown (.waiting w) =>
    match s.service.lifecycle with
    | none => (none, s)
    | some l =>
      let (turn, l) := l.resumeShutdown w
      let s := { s with service := { s.service with lifecycle := some l } }
      match turn with
      | .ended outcome => s.answer caller (.shutdown outcome)
      | turn => (none, s.replace caller (.shutdown turn))

/-- Lets somebody go on. -/
def move (who : Mover) (s : Session ρo ρn β κ V) : Option (CallAnswer V) × Session ρo ρn β κ V :=
  match who with
  | .worker => (none, { s with service := s.service.tearDown })
  | .caller name =>
    match s.calls.find? (·.1 = name) with
    | none => (none, s)
    | some (_, call) => s.goOn name call

/-- Lets calls go on until each has ended or waits; gives the answers of those that have ended. -/
def settle (s : Session ρo ρn β κ V) : List (Caller × CallAnswer V) × Session ρo ρn β κ V :=
  let (answers, s) := ObjectStore.settle due move defaultFuel s
  (answers.filterMap fun
    | (.caller name, a) => some (name, a)
    | (.worker, _) => none, s)

end Session

end ObjectStore
