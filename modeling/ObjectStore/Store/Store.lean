/-
The store.

The store checks that a transaction is active, reports the accesses that an operation makes, calls
the backend, and aborts the transaction when a failure asks for it.  `step` is one indivisible step
of an operation: a look at a transaction's status, one report, or one call of the backend.  An
operation as a whole is `start` followed by steps until it has ended or waits.
-/
import ObjectStore.Access.Reporter
import ObjectStore.Store.Operation

namespace ObjectStore

/-- A store with its reporters for objects and names, its backend, and the time. -/
structure Store (ρo ρn β : Type) where
  now : Nat
  register : Register
  objects : ρo
  names : ρn
  backend : β
  isShutDown : Bool

namespace Store

/-- What the store calls itself. -/
def typeName : String := "DataStore"

/-- The resource named in conflicts over objects. -/
def objectsSource : String := "txstore.objects"

/-- The resource named in conflicts over names. -/
def namesSource : String := "txstore.names"

variable {ρo ρn β : Type}

/-- A store that is new. -/
def new (objects : ρo) (names : ρn) (backend : β) : Store ρo ρn β :=
  ⟨0, .empty, objects, names, backend, false⟩

/-- Lets time pass. -/
def tick (n : Nat) (s : Store ρo ρn β) : Store ρo ρn β := { s with now := s.now + n }

/-- Begins a transaction that may live for a while. -/
def begin (t : TxnId) (seniority : Seniority) (lifetime : Nat) (s : Store ρo ρn β) :
    Store ρo ρn β :=
  { s with register := s.register.start t seniority (s.now + lifetime) }

/-- Changes the status of a transaction by a function that also answers. -/
def updateTxn {α : Type} (t : TxnId) (f : Txn → α × Txn) (s : Store ρo ρn β) :
    α × Store ρo ρn β :=
  let (a, register) := s.register.update t f
  (a, { s with register })

/-- Sees whether a transaction may still perform operations. -/
def checkActive (t : TxnId) (s : Store ρo ρn β) : Except StoreError Unit × Store ρo ρn β :=
  s.updateTxn t (·.checkActive s.now)

/-- Lets a transaction know of a failure of one of its calls. -/
def noteFailure (t : TxnId) (e : StoreError) (s : Store ρo ρn β) : Store ρo ρn β :=
  { s with register := s.register.noteFailure t e }

section Steps

variable [Reporter ρo ObjectId] [Reporter ρn NameKey] [Backend β]

/-- Calls the backend. -/
def call {α : Type} (t : TxnId) (c : BackendCall α) (s : Store ρo ρn β) :
    Except StoreError α × Store ρo ρn β :=
  let (result, backend) := Backend.perform c t s.backend
  (result, { s with backend })

/-- Calls the backend and goes on with its answer. -/
def callThen {α : Type} (t : TxnId) (c : BackendCall α) (next : α → Stage) (s : Store ρo ρn β) :
    Stage × Store ρo ρn β :=
  match s.call t c with
  | (.ok a, s) => (next a, s)
  | (.error e, s) => (.failing e, s)

/-- Reports an access. -/
def report (t : TxnId) (access : Access) (s : Store ρo ρn β) : AccessTurn × Store ρo ρn β :=
  match access with
  | .object oid mode =>
    let (turn, register, objects) := Reporter.report s.now t oid mode s.register s.objects
    (turn, { s with register, objects })
  | .name key mode =>
    let (turn, register, names) := Reporter.report s.now t key mode s.register s.names
    (turn, { s with register, names })

/-- Whether an access of a transaction that waits is to be reported again. -/
def isDue (t : TxnId) (signal : Signal) (access : Access) (s : Store ρo ρn β) : Bool :=
  let deadline := (s.register.find t).deadline
  match access with
  | .object _ _ => Reporter.isDue s.now deadline signal s.objects
  | .name _ _ => Reporter.isDue s.now deadline signal s.names

/-- Carries out a plan, up to the next access or the answer. -/
def act (t : TxnId) (plan : Plan) (s : Store ρo ρn β) : Stage × Store ρo ρn β :=
  match plan with
  | .create => s.callThen t .create fun oid => .ended (.ok (.object oid))
  | .mark oid => s.callThen t (.mark oid) fun _ => .ended (.ok .done)
  | .get oid => s.callThen t (.get oid) fun data => .ended (.ok (.data data))
  | .set oid data => s.callThen t (.set oid data) fun _ => .ended (.ok .done)
  | .setMany (oid :: rest) items => (.report (.object oid .write) (.setMany rest items), s)
  | .setMany [] items => s.callThen t (.setMany items) fun _ => .ended (.ok .done)
  | .remove oid => s.callThen t (.remove oid) fun _ => .ended (.ok .done)
  | .getBinding name =>
    s.callThen t (.getBinding name) fun
      | .bound oid _ => .ended (.ok (.object oid))
      | .unbound next =>
        .report (.name (.ofPosition next) .read) (.answer (.error (.nameNotBound name)))
  | .setBinding name oid =>
    s.callThen t (.setBinding name oid) fun
      | .bound _ _ => .ended (.ok .done)
      | .unbound next => .report (.name (.ofPosition next) .write) (.answer (.ok .done))
  | .removeBinding name =>
    s.callThen t (.removeBinding name) fun before =>
      let scan := Scan.removal name before.isBound
      .report (scan.access before.next?) (.confirm scan before.next?)
  | .beginScan after =>
    s.callThen t (.nextName after) fun next =>
      let scan := Scan.next after
      .report (scan.access next) (.confirm scan next)
  | .confirm scan locked =>
    s.callThen t (.nextName scan.after) fun answer =>
      match NameRound.ofAnswer locked answer with
      | .settled next => .ofResult (scan.answer next)
      | .again next => .report (scan.access next) (.confirm scan next)
  | .classId info => s.callThen t (.classId info) fun id => .ended (.ok (.classId id))
  | .classInfo id => s.callThen t (.classInfo id) fun info => .ended (.ok (.data info))
  | .nextObject after =>
    s.callThen t (.nextObject after) fun
      | none => .ended (.ok (.nextObject none))
      | some oid => .report (.object oid .read) (.answer (.ok (.nextObject (some oid))))
  | .answer result => (.ofResult result, s)

/-- Begins an operation. -/
def start (t : TxnId) (op : Operation) (s : Store ρo ρn β) : Stage × Store ρo ρn β :=
  match op.refusal? with
  | some e => (.failing e, s)
  | none =>
    match s.checkActive t with
    | (.error e, s) => (.failing e, s)
    | (.ok _, s) => (op.firstStage, s)

/-- One step of an operation. -/
def step (t : TxnId) (stage : Stage) (s : Store ρo ρn β) : Stage × Store ρo ρn β :=
  match stage with
  | .report access plan =>
    match s.report t access with
    | (.allowed, s) => (.act plan, s)
    | (.waiting signal, s) => (.waiting signal access plan, s)
    | (.refused e, s) => (.failing e, s)
  | .waiting signal access plan =>
    if s.isDue t signal access then (.report access plan, s) else (stage, s)
  | .act plan => s.act t plan
  | .failing e => (.ended (.error e), s.noteFailure t e)
  | .ended _ => (stage, s)

/-- Whether an operation can take a step that changes anything. -/
def canStep (t : TxnId) (stage : Stage) (s : Store ρo ρn β) : Bool :=
  match stage with
  | .waiting signal access _ => s.isDue t signal access
  | .ended _ => false
  | _ => true

/-- Takes steps until the operation has ended or waits. -/
def advance : Nat → TxnId → Stage → Store ρo ρn β → Stage × Store ρo ρn β
  | 0, _, stage, s => (stage, s)
  | fuel + 1, t, stage, s =>
    if s.canStep t stage then
      let (stage, s) := s.step t stage
      advance fuel t stage s
    else (stage, s)

/-- Attaches a description to an object or a name. -/
def describe (t : TxnId) (subject : Subject) (text : String) (s : Store ρo ρn β) :
    Store ρo ρn β :=
  match subject with
  | .object oid => { s with objects := Reporter.describe t oid text s.objects }
  | .name name => { s with names := Reporter.describe t (NameKey.ofName name) text s.names }

/-- Shuts the backend down.  Only the first call does anything. -/
def shutdown (s : Store ρo ρn β) : Except StoreError Unit × Store ρo ρn β :=
  if s.isShutDown then (.ok (), s) else { s with isShutDown := true }.call ⟨0⟩ .shutdown

end Steps

end Store

end ObjectStore
