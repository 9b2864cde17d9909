/-
A service on its own, with hooks that are told what to do.

The ready hook comes to a given result.  The shutdown hook may have to wait for a gate; whether it
then succeeds or not makes no difference to the service.  Guards of calls in progress are kept
until they are dropped.
-/
import ObjectStore.Service.IoTask
import ObjectStore.Service.Lifecycle
import ObjectStore.Service.Nodes
import ObjectStore.Settle

namespace ObjectStore

/-- What the ready hook comes to, and whether its runs are counted. -/
structure ReadyHook where
  result : Except ServiceError Unit
  isCounted : Bool

/-- What an attempt at input or output comes to. -/
inductive IoAttempt where
  | succeeds
  | fails
  /-- It fails, and the node is found dead. -/
  | failsDead
  /-- It fails, and the node is registered. -/
  | failsAlive
  deriving DecidableEq, Repr

/-- A service in use. -/
structure ServiceSession where
  lifecycle : Lifecycle
  nodes : NodeRegistry
  retries : Nat
  readyHook : ReadyHook
  /-- Whether the shutdown hook waits for the gate. -/
  isGated : Bool
  gateOpen : Bool
  readyRuns : Nat
  teardownRuns : Nat
  /-- The calls whose guards are kept. -/
  guards : List Nat
  shutdowns : List (String × ShutdownTurn)

namespace ServiceSession

/-- A service that has not been used. -/
def new (name : String) (retries : Nat) (readyHook : ReadyHook) (isGated : Bool) :
    ServiceSession :=
  ⟨.new name, .empty, retries, readyHook, isGated, false, 0, 0, [], []⟩

/-- Makes the service ready, and runs the hook if this is the first time. -/
def ready (s : ServiceSession) : Except ServiceError Unit × ServiceSession :=
  match s.lifecycle.beginReady with
  | (.error e, lifecycle) => (.error e, { s with lifecycle })
  | (.ok false, lifecycle) => (.ok (), { s with lifecycle })
  | (.ok true, lifecycle) =>
    let runs := if s.readyHook.isCounted then s.readyRuns + 1 else s.readyRuns
    (s.readyHook.result, { s with lifecycle, readyRuns := runs })

/-- Drops the guard of a call; says whether there was one. -/
def finish (call : Nat) (s : ServiceSession) : Bool × ServiceSession :=
  if s.guards.contains call then
    (true, { s with guards := s.guards.erase call, lifecycle := s.lifecycle.finishCall })
  else (false, s)

/-- Begins a call and keeps its guard, in place of the one that was kept under the same number. -/
def start (call : Nat) (s : ServiceSession) : Except ServiceError Unit × ServiceSession :=
  match s.lifecycle.startCall with
  | (.error e, lifecycle) => (.error e, { s with lifecycle })
  | (.ok _, lifecycle) =>
    let (_, s) := { s with lifecycle }.finish call
    (.ok (), { s with guards := call :: s.guards })

/-- Begins a shutdown. -/
def shutDown (caller : String) (s : ServiceSession) : ServiceSession :=
  let (turn, lifecycle) := s.lifecycle.beginShutdown
  { s with lifecycle, shutdowns := s.shutdowns ++ [(caller, turn)] }

/-- Interrupts every shutdown that waits. -/
def interrupt (s : ServiceSession) : ServiceSession :=
  { s with lifecycle := s.lifecycle.interrupt }

/-- Opens the gate for good. -/
def openGate (s : ServiceSession) : ServiceSession := { s with gateOpen := true }

/-- Whether a caller's shutdown has not ended. -/
def isBusy (caller : String) (s : ServiceSession) : Bool := s.shutdowns.any (·.1 = caller)

/-- The callers whose shutdowns have not ended, in order. -/
def blocked (s : ServiceSession) : List String := Text.sort (s.shutdowns.map (·.1))

/-! ### Nodes -/

/-- Whether a node is alive, asked from a context. -/
def isAlive (context : TaskContext) (node : NodeId) (s : ServiceSession) :
    Except ServiceError Bool :=
  if context.inTransaction then .error .transactionalContext else .ok (s.nodes.isAlive node)

/-- The task that makes given attempts at a node one after another and repeats the last. -/
def ioPlan (node : NodeId) (reporter : String) (attempts : List IoAttempt) :
    IoPlan NodeRegistry where
  attempt made nodes :=
    match (attempts[made]?).or attempts.getLast? with
    | none | some .succeeds => (true, nodes)
    | some .fails => (false, nodes)
    | some .failsDead => (false, nodes.markDead node)
    | some .failsAlive => (false, nodes.register node)
  isAlive nodes := (nodes.isAlive node, nodes)
  report nodes := nodes.reportFailure node reporter

/-- Runs an input or output task; answers how it ended and how many attempts were made. -/
def runIo (context : TaskContext) (node : NodeId) (attempts : List IoAttempt) (s : ServiceSession) :
    Except ServiceError IoOutcome × Nat × ServiceSession :=
  let plan := ioPlan node s.lifecycle.name attempts
  let (outcome, made, nodes) := plan.runIn context s.retries s.nodes
  (outcome, made, { s with nodes })

/-! ### Going on -/

/-- Who may go on: the worker, or a caller. -/
inductive Mover where
  | worker
  | caller (name : String)

/-- Whether the worker can go on. -/
def workerIsDue (s : ServiceSession) : Bool :=
  match s.lifecycle.teardown with
  | .started => true
  | .running => !s.isGated || s.gateOpen
  | .notStarted | .ended => false

/-- Whether a shutdown can go on, or has ended and not been answered yet. -/
def isDue (s : ServiceSession) : ShutdownTurn → Bool
  | .ended _ => true
  | .waiting w => s.lifecycle.isAwake w

/-- Somebody who can go on. -/
def due (s : ServiceSession) : Option Mover :=
  if s.workerIsDue then some .worker
  else (s.shutdowns.find? fun (_, turn) => s.isDue turn).map fun (name, _) => .caller name

/-- The worker's next move: into the hook, or out of it. -/
def work (s : ServiceSession) : ServiceSession :=
  match s.lifecycle.teardown with
  | .started =>
    { s with lifecycle := s.lifecycle.beginTeardown, teardownRuns := s.teardownRuns + 1 }
  | .running => { s with lifecycle := s.lifecycle.endTeardown }
  | .notStarted | .ended => s

/-- Lets a shutdown go on. -/
def goOn (caller : String) (turn : ShutdownTurn) (s : ServiceSession) :
    Option ShutdownOutcome × ServiceSession :=
  match turn with
  | .ended outcome => (some outcome, { s with shutdowns := s.shutdowns.filter (·.1 ≠ caller) })
  | .waiting w =>
    let (turn, lifecycle) := s.lifecycle.resumeShutdown w
    (none, { s with
      lifecycle
      shutdowns := s.shutdowns.map fun (c, old) => if c = caller then (c, turn) else (c, old) })

/-- Lets somebody go on. -/
def move (who : Mover) (s : ServiceSession) : Option ShutdownOutcome × ServiceSession :=
  match who with
  | .worker => (none, s.work)
  | .caller name =>
    match s.shutdowns.find? (·.1 = name) with
    | none => (none, s)
    | some (_, turn) => s.goOn name turn

/-- Lets everybody go on who can; gives the answers of the shutdowns that have ended. -/
def settle (s : ServiceSession) : List (String × ShutdownOutcome) × ServiceSession :=
  let (answers, s) := ObjectStore.settle due move defaultFuel s
  (answers.filterMap fun
    | (.caller name, a) => some (name, a)
    | (.worker, _) => none, s)

end ServiceSession

end ObjectStore
