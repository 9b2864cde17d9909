/-
A store that runs as a service.

Operations count as calls of the service, so a shutdown waits for them; the teardown shuts the
store down.  Participant calls go to the store directly.  A store can also be used without a
lifecycle around it.
-/
import ObjectStore.Coordination.Task
import ObjectStore.Service.Lifecycle

namespace ObjectStore

/-- A store, and the lifecycle that counts its calls if it runs as a service. -/
structure StoreService (ρo ρn β : Type) where
  store : Store ρo ρn β
  lifecycle : Option Lifecycle

namespace StoreService

/-- What the service is called. -/
def serviceName : String := "DataService"

variable {ρo ρn β : Type}

/-- A store that runs as a service. -/
def new (store : Store ρo ρn β) : StoreService ρo ρn β := ⟨store, some (.new serviceName)⟩

/-- A store without a lifecycle. -/
def bare (store : Store ρo ρn β) : StoreService ρo ρn β := ⟨store, none⟩

/-- Changes the lifecycle, if there is one. -/
def mapLifecycle (f : Lifecycle → Lifecycle) (s : StoreService ρo ρn β) : StoreService ρo ρn β :=
  { s with lifecycle := s.lifecycle.map f }

/-- Begins a counted call. -/
def startCall (s : StoreService ρo ρn β) : Except StoreError Unit × StoreService ρo ρn β :=
  match s.lifecycle with
  | none => (.ok (), s)
  | some l =>
    match l.startCall with
    | (.ok _, l) => (.ok (), { s with lifecycle := some l })
    | (.error e, l) => (.error (.illegalState e.message), { s with lifecycle := some l })

/-- Ends a counted call. -/
def finishCall (s : StoreService ρo ρn β) : StoreService ρo ρn β := s.mapLifecycle (·.finishCall)

/-- Applies a function to the store. -/
def onStore {α : Type} (f : Store ρo ρn β → α × Store ρo ρn β) (s : StoreService ρo ρn β) :
    α × StoreService ρo ρn β :=
  let (a, store) := f s.store
  (a, { s with store })

variable [Reporter ρo ObjectId] [Reporter ρn NameKey] [Backend β]

/-- Begins an operation as a counted call. -/
def start (t : TxnId) (op : Operation) (s : StoreService ρo ρn β) :
    Stage × StoreService ρo ρn β :=
  match s.startCall with
  | (.error e, s) => (.ended (.error e), s)
  | (.ok _, s) => s.onStore (·.start t op)

/-- One step of an operation.  With its last step the counted call ends. -/
def step (t : TxnId) (stage : Stage) (s : StoreService ρo ρn β) : Stage × StoreService ρo ρn β :=
  match stage with
  | .ended _ => (stage, s)
  | stage =>
    match s.onStore (·.step t stage) with
    | (.ended result, s) => (.ended result, s.finishCall)
    | (stage, s) => (stage, s)

/-- Takes steps until an operation has ended or waits. -/
def advance : Nat → TxnId → Stage → StoreService ρo ρn β → Stage × StoreService ρo ρn β
  | 0, _, stage, s => (stage, s)
  | fuel + 1, t, stage, s =>
    if s.store.canStep t stage then
      let (stage, s) := s.step t stage
      advance fuel t stage s
    else (stage, s)

/-- The worker's whole work: it enters the hook, which shuts the store down, and ends. -/
def tearDown (s : StoreService ρo ρn β) : StoreService ρo ρn β :=
  let s := s.mapLifecycle (·.beginTeardown)
  let (_, s) := s.onStore (·.shutdown)
  s.mapLifecycle (·.endTeardown)

/-- Begins a transaction.  Beginning takes a moment, so a transaction without a lifetime is over
before its first operation. -/
def begin (t : TxnId) (seniority : Seniority) (lifetime : Nat) (s : StoreService ρo ρn β) :
    StoreService ρo ρn β :=
  { s with store := (s.store.begin t seniority lifetime).tick 1 }

instance : TaskHost (StoreService ρo ρn β) where
  begin := begin
  find t s := s.store.register.find t
  describe t subject text s := { s with store := s.store.describe t subject text }
  cancel t cause := onStore (·.updateTxn t (·.abort cause))
  check t := onStore (·.checkActive t)
  start := start
  step := step
  canStep t stage s := s.store.canStep t stage
  participate t call := onStore (·.participate t call)

end StoreService

end ObjectStore
