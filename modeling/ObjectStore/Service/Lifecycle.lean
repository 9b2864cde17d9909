/-
The life of a service.

A service is initialized, made ready, shut down.  Calls are counted while they are in progress; a
shutdown waits until there are none, lets a worker tear the service down, and waits for the worker.
A waiting shutdown can be interrupted, and another one takes up the wait.

Every function below is one section that nothing comes between.  A shutdown that has to wait
remembers how often sleepers had been woken, and looks again once they are woken once more.
-/
import ObjectStore.Failure

namespace ObjectStore

/-- Where a service stands. -/
inductive ServiceState where
  | initialized
  | ready
  | shuttingDown
  | shutDown
  deriving DecidableEq, Repr

namespace ServiceState

/-- The state's own name. -/
def label : ServiceState → String
  | initialized => "Initialized"
  | ready => "Ready"
  | shuttingDown => "ShuttingDown"
  | shutDown => "Shutdown"

/-- Whether a shutdown has begun. -/
def isClosing : ServiceState → Bool
  | shuttingDown | shutDown => true
  | initialized | ready => false

end ServiceState

/-- How far the worker that tears the service down has come. -/
inductive Teardown where
  | notStarted
  /-- The worker has been started and is about to run the hook. -/
  | started
  /-- The hook is running. -/
  | running
  | ended
  deriving DecidableEq, Repr

/-- The state of a service and the calls in progress. -/
structure Lifecycle where
  name : String
  state : ServiceState
  calls : Nat
  teardown : Teardown
  /-- How often a shutdown has been interrupted. -/
  interrupts : Nat
  /-- How often sleepers have been woken. -/
  wakeups : Nat
  deriving DecidableEq, Repr

/-- How a shutdown ends. -/
inductive ShutdownOutcome where
  | completed
  | interrupted
  deriving DecidableEq, Repr

/-- What a shutdown waits for. -/
inductive ShutdownPhase where
  /-- The end of the calls in progress. -/
  | draining
  /-- The end of the teardown. -/
  | tearingDown
  deriving DecidableEq, Repr

/-- A shutdown that waits: for what, and what it saw when it began and when it went to sleep. -/
structure ShutdownWait where
  phase : ShutdownPhase
  interruptsSeen : Nat
  wakeupsSeen : Nat
  deriving DecidableEq, Repr

/-- What a shutdown comes to at a look. -/
inductive ShutdownTurn where
  | ended (outcome : ShutdownOutcome)
  | waiting (wait : ShutdownWait)
  deriving DecidableEq, Repr

namespace Lifecycle

/-- A service that has not been used. -/
def new (name : String) : Lifecycle := ⟨name, .initialized, 0, .notStarted, 0, 0⟩

/-- Whether a shutdown has begun. -/
def isShuttingDown (l : Lifecycle) : Bool := l.state.isClosing

/-- The failure of whoever comes after a shutdown has begun. -/
def refusal (l : Lifecycle) : ServiceError :=
  .illegalState s!"service {l.name} is shutting down"

/-- Wakes all sleepers. -/
def wake (l : Lifecycle) : Lifecycle := { l with wakeups := l.wakeups + 1 }

/-! ### Getting ready, and calls -/

/-- Makes the service ready; answers whether the hook is to be run, which the first call does. -/
def beginReady (l : Lifecycle) : Except ServiceError Bool × Lifecycle :=
  match l.state with
  | .initialized => (.ok true, { l with state := .ready })
  | .ready => (.ok false, l)
  | .shuttingDown | .shutDown => (.error l.refusal, l)

/-- Begins a call. -/
def startCall (l : Lifecycle) : Except ServiceError Unit × Lifecycle :=
  if l.isShuttingDown then (.error l.refusal, l) else (.ok (), { l with calls := l.calls + 1 })

/-- Ends a call.  The last one wakes those who wait for it. -/
def finishCall (l : Lifecycle) : Lifecycle :=
  let l := { l with calls := l.calls - 1 }
  if l.state = .shuttingDown ∧ l.calls = 0 then l.wake else l

/-! ### Shutting down -/

/-- Goes to sleep. -/
def sleep (phase : ShutdownPhase) (interruptsSeen : Nat) (l : Lifecycle) : ShutdownTurn :=
  .waiting ⟨phase, interruptsSeen, l.wakeups⟩

/-- Waits for the teardown. -/
def awaitTeardown (interruptsSeen : Nat) (l : Lifecycle) : ShutdownTurn :=
  if l.state = .shutDown then .ended .completed
  else if l.interrupts ≠ interruptsSeen then .ended .interrupted
  else l.sleep .tearingDown interruptsSeen

/-- Waits for the calls in progress; when there are none, starts the teardown and waits for it. -/
def drain (interruptsSeen : Nat) (l : Lifecycle) : ShutdownTurn × Lifecycle :=
  if 0 < l.calls then
    if l.interrupts ≠ interruptsSeen then (.ended .interrupted, l)
    else (l.sleep .draining interruptsSeen, l)
  else
    let l := if l.teardown = .notStarted then { l with teardown := .started } else l
    (l.awaitTeardown interruptsSeen, l)

/-- Begins a shutdown. -/
def beginShutdown (l : Lifecycle) : ShutdownTurn × Lifecycle :=
  match l.state with
  | .shutDown => (.ended .completed, l)
  | .initialized | .ready => { l with state := .shuttingDown }.drain l.interrupts
  | .shuttingDown => l.drain l.interrupts

/-- Whether a waiting shutdown has been woken. -/
def isAwake (w : ShutdownWait) (l : Lifecycle) : Bool := decide (l.wakeups ≠ w.wakeupsSeen)

/-- Goes on with a shutdown that has been woken. -/
def resumeShutdown (w : ShutdownWait) (l : Lifecycle) : ShutdownTurn × Lifecycle :=
  match w.phase with
  | .draining => l.drain w.interruptsSeen
  | .tearingDown => (l.awaitTeardown w.interruptsSeen, l)

/-- Interrupts every shutdown that waits. -/
def interrupt (l : Lifecycle) : Lifecycle := { l with interrupts := l.interrupts + 1 }.wake

/-! ### The worker -/

/-- The worker enters the hook. -/
def beginTeardown (l : Lifecycle) : Lifecycle := { l with teardown := .running }

/-- The hook has ended, in whatever way. -/
def endTeardown (l : Lifecycle) : Lifecycle :=
  { l with teardown := .ended, state := .shutDown }.wake

end Lifecycle

end ObjectStore
