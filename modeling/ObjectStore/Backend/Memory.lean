/-
A backend that keeps everything in memory.

Committed objects and bindings are maps.  Each transaction buffers its writes, sees them over the
committed maps, and has them carried out when it commits.  Class descriptions are registered at
once and for good.  Once shut down the backend refuses every call that asks for something, except
an abort and another shutdown.
-/
import ObjectStore.Backend.Call
import ObjectStore.Backend.WriteSet

namespace ObjectStore

/-- The contents of the backend. -/
structure Memory where
  nextOid : ObjectId
  objects : FinMap ObjectId Bytes
  names : FinMap Name ObjectId
  /-- Class descriptions; the first has number one. -/
  classes : List Bytes
  /-- The numbers of the class descriptions. -/
  classIds : FinMap Bytes ClassId
  pending : FinMap TxnId WriteSet
  isShutDown : Bool
  deriving DecidableEq

namespace Memory

/-- A backend without any data. -/
def empty : Memory := ⟨⟨1⟩, ∅, ∅, [], ∅, ∅, false⟩

/-- The writes of a transaction, of which there may be none. -/
def writes (m : Memory) (t : TxnId) : WriteSet := (m.pending.get? t).getD .empty

/-- Changes the writes of a transaction. -/
def write (m : Memory) (t : TxnId) (f : WriteSet → WriteSet) : Memory :=
  { m with pending := m.pending.insert t (f (m.writes t)) }

/-- Forgets the writes of a transaction. -/
def discard (m : Memory) (t : TxnId) : Memory := { m with pending := m.pending.erase t }

/-- Carries writes out. -/
def apply (m : Memory) (w : WriteSet) : Memory :=
  { m with objects := m.objects.merge w.objects, names := m.names.merge w.names }

/-! ### What a transaction sees -/

/-- The contents of an object. -/
def object? (m : Memory) (t : TxnId) (oid : ObjectId) : Option Bytes :=
  m.objects.under? (m.writes t).objects oid

/-- The object that a name is bound to. -/
def binding? (m : Memory) (t : TxnId) (name : Name) : Option ObjectId :=
  m.names.under? (m.writes t).names name

/-- The next bound name. -/
def nextName? (m : Memory) (t : TxnId) (after : Option Name) : Option Name :=
  leastAfter after (m.names.keysUnder (m.writes t).names)

/-- The next object. -/
def nextObject? (m : Memory) (t : TxnId) (after : Option ObjectId) : Option ObjectId :=
  leastAfter after (m.objects.keysUnder (m.writes t).objects)

/-! ### Calls

Each function performs one call on a backend that is open.
-/

/-- The contents of an object, or the failure that there is none. -/
def require (m : Memory) (t : TxnId) (oid : ObjectId) : Except StoreError Bytes :=
  match m.object? t oid with
  | some data => .ok data
  | none => .error (.objectNotFound oid)

/-- Makes an empty object. -/
def create (t : TxnId) (m : Memory) : ObjectId × Memory :=
  let oid := m.nextOid
  (oid, { m with nextOid := oid.next }.write t (·.writeObject oid (some [])))

/-- Whether an object of this number may exist or have existed. -/
def isAllocated (m : Memory) (oid : ObjectId) : Bool :=
  decide (oid.val ≠ 0) && decide (oid < m.nextOid)

/-- Writes an object whose number has been given out. -/
def set (t : TxnId) (oid : ObjectId) (data : Bytes) (m : Memory) : Except StoreError Unit × Memory :=
  if m.isAllocated oid then (.ok (), m.write t (·.writeObject oid (some data)))
  else (.error (.objectNotFound oid), m)

/-- Writes objects in turn.  What was written before a failure stays written. -/
def setMany (t : TxnId) : List (ObjectId × Bytes) → Memory → Except StoreError Unit × Memory
  | [], m => (.ok (), m)
  | (oid, data) :: rest, m =>
    match m.set t oid data with
    | (.error e, m) => (.error e, m)
    | (.ok _, m) => setMany t rest m

/-- Removes an object that exists. -/
def remove (t : TxnId) (oid : ObjectId) (m : Memory) : Except StoreError Unit × Memory :=
  match m.require t oid with
  | .error e => (.error e, m)
  | .ok _ => (.ok (), m.write t (·.writeObject oid none))

/-- Looks a name up. -/
def getBinding (m : Memory) (t : TxnId) (name : Name) : Binding :=
  match m.binding? t name with
  | some oid => .bound oid none
  | none => .unbound (m.nextName? t (some name))

/-- Binds a name. -/
def setBinding (t : TxnId) (name : Name) (oid : ObjectId) (m : Memory) : Binding × Memory :=
  let before := m.binding? t name
  let m := m.write t (·.writeName name (some oid))
  match before with
  | some oid => (.bound oid none, m)
  | none => (.unbound (m.nextName? t (some name)), m)

/-- Removes a binding; a name that is not bound is not written. -/
def removeBinding (t : TxnId) (name : Name) (m : Memory) : Binding × Memory :=
  match m.binding? t name with
  | some oid =>
    let m := m.write t (·.writeName name none)
    (.bound oid (m.nextName? t (some name)), m)
  | none => (.unbound (m.nextName? t (some name)), m)

/-- The number of a class description, which is registered if it is new. -/
def classId (info : Bytes) (m : Memory) : Except StoreError ClassId × Memory :=
  match m.classIds.get? info with
  | some id => (.ok id, m)
  | none =>
    let next := m.classes.length + 1
    if next < classLimit then
      let id := ⟨next⟩
      (.ok id, { m with
        classes := m.classes ++ [info]
        classIds := m.classIds.insert info id })
    else (.error (.internal "class id space exhausted"), m)

/-- The class description of a number. -/
def classInfo (m : Memory) (id : ClassId) : Except StoreError Bytes :=
  match id.val with
  | 0 => .error (.classInfoNotFound id)
  | i + 1 =>
    match m.classes[i]? with
    | some info => .ok info
    | none => .error (.classInfoNotFound id)

/-- Readies the writes of a transaction for a commit; answers whether there are none. -/
def prepare (t : TxnId) (m : Memory) : Bool × Memory :=
  if (m.writes t).isEmpty then (true, m.discard t)
  else (false, m.write t fun w => { w with prepared := true })

/-- Carries prepared writes out.  Writes that were not prepared are lost. -/
def commit (t : TxnId) (m : Memory) : Except StoreError Unit × Memory :=
  match m.pending.get? t with
  | none => (.ok (), m)
  | some w =>
    if w.prepared then (.ok (), (m.discard t).apply w)
    else
      (.error (.illegalState s!"transaction {t.text} committed without prepare"), m.discard t)

/-- Carries the writes of a transaction out, prepared or not. -/
def prepareAndCommit (t : TxnId) (m : Memory) : Memory := (m.discard t).apply (m.writes t)

/-- Closes the backend and forgets all writes that are not committed. -/
def shutdown (m : Memory) : Memory := { m with pending := ∅, isShutDown := true }

/-- Performs a call on an open backend. -/
def performOpen {α : Type} (t : TxnId) (m : Memory) : BackendCall α → Except StoreError α × Memory
  | .create => let (oid, m) := m.create t; (.ok oid, m)
  | .mark oid => ((m.require t oid).map fun _ => (), m)
  | .get oid => (m.require t oid, m)
  | .set oid data => m.set t oid data
  | .setMany items => setMany t items m
  | .remove oid => m.remove t oid
  | .getBinding name => (.ok (m.getBinding t name), m)
  | .setBinding name oid => let (binding, m) := m.setBinding t name oid; (.ok binding, m)
  | .removeBinding name => let (binding, m) := m.removeBinding t name; (.ok binding, m)
  | .nextName after => (.ok (m.nextName? t after), m)
  | .classId info => m.classId info
  | .classInfo id => (m.classInfo id, m)
  | .nextObject after => (.ok (m.nextObject? t after), m)
  | .shutdown => (.ok (), m.shutdown)
  | .prepare => let (readOnly, m) := m.prepare t; (.ok readOnly, m)
  | .commit => m.commit t
  | .prepareAndCommit => (.ok (), m.prepareAndCommit t)
  | .abort => (.ok (), m.discard t)

/-- Whether a call is answered even when the backend is shut down. -/
def isAlwaysAllowed {α : Type} : BackendCall α → Bool
  | .shutdown => true
  | .abort => true
  -- A batch without members asks for nothing.
  | .setMany [] => true
  | _ => false

/-- Performs a call, unless the backend is shut down. -/
def perform {α : Type} (call : BackendCall α) (t : TxnId) (m : Memory) :
    Except StoreError α × Memory :=
  if m.isShutDown && !isAlwaysAllowed call then
    (.error (.illegalState "backend is shut down"), m)
  else m.performOpen t call

instance : Backend Memory := ⟨perform⟩

end Memory

end ObjectStore
