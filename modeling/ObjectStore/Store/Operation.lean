/-
The data operations of the store, and how far one of them has come.

An operation reports accesses and calls the backend in turn, at most one of them per step.  While
an access waits, the operation is a piece of data: the access, and the plan for what follows it.
-/
import ObjectStore.Backend.Call
import ObjectStore.Locking.Entry

namespace ObjectStore

/-! ### Following the next bound name -/

/-- What follows from asking for the next name again, once its lock has been granted: the next name
may have changed while the lock was waited for. -/
inductive NameRound where
  /-- The lock covers the current answer. -/
  | settled (next : Option Name)
  /-- Another name has to be locked. -/
  | again (next : Option Name)
  deriving DecidableEq, Repr

/-- Compares the name that was locked with the answer given afterwards. -/
def NameRound.ofAnswer (locked answer : Option Name) : NameRound :=
  if answer = locked then settled locked else again answer

/-! ### Operations -/

/-- An operation on objects, names or classes. -/
inductive Operation where
  | create
  | mark (oid : ObjectId)
  | get (oid : ObjectId) (forUpdate : Bool)
  | set (oid : ObjectId) (data : Bytes)
  | setMany (oids : List ObjectId) (datas : List Bytes)
  | remove (oid : ObjectId)
  | getBinding (name : Name)
  | setBinding (name : Name) (oid : ObjectId)
  | removeBinding (name : Name)
  /-- The first bound name after a position. -/
  | nextName (after : Option Name)
  | classId (info : Bytes)
  | classInfo (id : ClassId)
  /-- The first object after a number. -/
  | nextObject (after : Option ObjectId)
  deriving DecidableEq, Repr

/-- What a description can be attached to. -/
inductive Subject where
  | object (oid : ObjectId)
  | name (name : Name)
  deriving DecidableEq, Repr

/-- What a call answers when it succeeds. -/
inductive Reply where
  | done
  | object (oid : ObjectId)
  | data (data : Bytes)
  | nextName (next : Option Name)
  | nextObject (next : Option ObjectId)
  | classId (id : ClassId)
  /-- Whether the transaction had written nothing. -/
  | readOnly (isReadOnly : Bool)
  deriving DecidableEq, Repr

/-- An access to be reported. -/
inductive Access where
  | object (oid : ObjectId) (mode : LockMode)
  | name (key : NameKey) (mode : LockMode)
  deriving DecidableEq, Repr

/-- Why the next bound name is followed. -/
inductive Scan where
  /-- A binding was removed, or found to be missing. -/
  | removal (name : Name) (wasBound : Bool)
  /-- The name itself is the answer. -/
  | next (after : Option Name)
  deriving DecidableEq, Repr

namespace Scan

/-- The position whose next name is followed. -/
def after : Scan → Option Name
  | removal name _ => some name
  | next after => after

/-- A removal closes a gap, so it writes the next name; all else only reads it. -/
def mode : Scan → LockMode
  | removal _ true => .write
  | removal _ false => .read
  | next _ => .read

/-- The answer once the next name is settled. -/
def answer (settled : Option Name) : Scan → Except StoreError Reply
  | removal _ true => .ok .done
  | removal name false => .error (.nameNotBound name)
  | next _ => .ok (.nextName settled)

/-- The access to a candidate for the next name. -/
def access (candidate : Option Name) (s : Scan) : Access :=
  .name (.ofPosition candidate) s.mode

end Scan

/-- What an operation does next: a call of the backend, or an answer. -/
inductive Plan where
  | create
  | mark (oid : ObjectId)
  | get (oid : ObjectId)
  | set (oid : ObjectId) (data : Bytes)
  /-- Some objects of the batch have yet to be reported. -/
  | setMany (unreported : List ObjectId) (items : List (ObjectId × Bytes))
  | remove (oid : ObjectId)
  | getBinding (name : Name)
  | setBinding (name : Name) (oid : ObjectId)
  | removeBinding (name : Name)
  /-- The first question for the next name. -/
  | beginScan (after : Option Name)
  /-- A candidate has been locked: the question is asked again. -/
  | confirm (scan : Scan) (locked : Option Name)
  | classId (info : Bytes)
  | classInfo (id : ClassId)
  | nextObject (after : Option ObjectId)
  | answer (result : Except StoreError Reply)

/-- How far an operation has come. -/
inductive Stage where
  /-- An access is about to be reported. -/
  | report (access : Access) (plan : Plan)
  /-- A reported access waits. -/
  | waiting (signal : Signal) (access : Access) (plan : Plan)
  /-- The plan is about to be carried out. -/
  | act (plan : Plan)
  /-- The transaction is about to learn of a failure. -/
  | failing (error : StoreError)
  | ended (result : Except StoreError Reply)

namespace Stage

/-- Goes on to an answer. -/
def ofResult : Except StoreError Reply → Stage
  | .ok reply => .ended (.ok reply)
  | .error e => .failing e

/-- The answer of an operation that has ended.  One that has not ended has none to give. -/
def result : Stage → Except StoreError Reply
  | ended result => result
  | _ => .error (.internal "operation has not ended")

end Stage

namespace Operation

/-- The failure of an operation that makes no sense. -/
def refusal? : Operation → Option StoreError
  | setMany oids datas =>
    if oids.length = datas.length then none
    else some (.invalidArgument s!"{oids.length} object ids but {datas.length} data items")
  | classId info => if info = [] then some (.invalidArgument "class info must not be empty") else none
  | classInfo id =>
    if id.isValid then none
    else some (.invalidArgument s!"class id must be greater than zero: {id.text}")
  | _ => none

/-- Whether the operation reports accesses, and so may have to wait. -/
def mayWait : Operation → Bool
  | create | classId _ | classInfo _ => false
  | _ => true

/-- Where an operation begins once its transaction is known to be active. -/
def firstStage : Operation → Stage
  | create => .act .create
  | mark oid => .report (.object oid .write) (.mark oid)
  | get oid forUpdate =>
    .report (.object oid (if forUpdate then .write else .read)) (.get oid)
  | set oid data => .report (.object oid .write) (.set oid data)
  | setMany oids datas => .act (.setMany oids (oids.zip datas))
  | remove oid => .report (.object oid .write) (.remove oid)
  | getBinding name => .report (.name (.ofName name) .read) (.getBinding name)
  | setBinding name oid => .report (.name (.ofName name) .write) (.setBinding name oid)
  | removeBinding name => .report (.name (.ofName name) .write) (.removeBinding name)
  | nextName after => .act (.beginScan after)
  | classId info => .act (.classId info)
  | classInfo id => .act (.classInfo id)
  | nextObject after => .act (.nextObject after)

end Operation

end ObjectStore
