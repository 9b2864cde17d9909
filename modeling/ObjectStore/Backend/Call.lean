/-
What a store asks of its backend.

A backend keeps the data.  It answers one call after another on behalf of transactions, and leaves
it to the store to check transactions and to take locks.
-/
import ObjectStore.Failure

namespace ObjectStore

/-- What a name is bound to, with the next bound name where the call reports one. -/
inductive Binding where
  | bound (oid : ObjectId) (next : Option Name)
  | unbound (next : Option Name)
  deriving DecidableEq, Repr

namespace Binding

/-- Whether the name is bound. -/
def isBound : Binding → Bool
  | bound _ _ => true
  | unbound _ => false

/-- The object that the name is bound to. -/
def oid? : Binding → Option ObjectId
  | bound oid _ => some oid
  | unbound _ => none

/-- The next bound name. -/
def next? : Binding → Option Name
  | bound _ next => next
  | unbound next => next

/-- The binding in words. -/
def text : Binding → String
  | bound oid next =>
    s!"BindingValue[oid:{oid.text}, nextName:{Text.optional (fun n => Text.quote n.text) next}]"
  | unbound next =>
    s!"BindingValue[unbound, nextName:{Text.optional (fun n => Text.quote n.text) next}]"

end Binding

/-- A call whose answer has type `α`. -/
inductive BackendCall : Type → Type where
  /-- Makes an empty object. -/
  | create : BackendCall ObjectId
  /-- Announces a change of an object. -/
  | mark (oid : ObjectId) : BackendCall Unit
  | get (oid : ObjectId) : BackendCall Bytes
  | set (oid : ObjectId) (data : Bytes) : BackendCall Unit
  /-- Sets one object after another, up to the first failure. -/
  | setMany (items : List (ObjectId × Bytes)) : BackendCall Unit
  | remove (oid : ObjectId) : BackendCall Unit
  /-- Reports the next name if the name is not bound. -/
  | getBinding (name : Name) : BackendCall Binding
  /-- Reports the binding before, and the next name if there was none. -/
  | setBinding (name : Name) (oid : ObjectId) : BackendCall Binding
  /-- Reports the binding before, and the next name in any case. -/
  | removeBinding (name : Name) : BackendCall Binding
  | nextName (after : Option Name) : BackendCall (Option Name)
  /-- Registers a class description if it is new. -/
  | classId (info : Bytes) : BackendCall ClassId
  | classInfo (id : ClassId) : BackendCall Bytes
  | nextObject (after : Option ObjectId) : BackendCall (Option ObjectId)
  | shutdown : BackendCall Unit
  /-- Answers whether the transaction has written nothing. -/
  | prepare : BackendCall Bool
  | commit : BackendCall Unit
  | prepareAndCommit : BackendCall Unit
  | abort : BackendCall Unit

/-- The kinds of calls. -/
inductive BackendKind where
  | create | mark | get | set | setMany | remove
  | getBinding | setBinding | removeBinding | nextName
  | classId | classInfo | nextObject | shutdown
  | prepare | commit | prepareAndCommit | abort
  deriving DecidableEq, Repr

/-- The kind of a call. -/
def BackendCall.kind {α : Type} : BackendCall α → BackendKind
  | .create => .create
  | .mark _ => .mark
  | .get _ => .get
  | .set _ _ => .set
  | .setMany _ => .setMany
  | .remove _ => .remove
  | .getBinding _ => .getBinding
  | .setBinding _ _ => .setBinding
  | .removeBinding _ => .removeBinding
  | .nextName _ => .nextName
  | .classId _ => .classId
  | .classInfo _ => .classInfo
  | .nextObject _ => .nextObject
  | .shutdown => .shutdown
  | .prepare => .prepare
  | .commit => .commit
  | .prepareAndCommit => .prepareAndCommit
  | .abort => .abort

/-- Storage of type `β` that answers calls. -/
class Backend (β : Type) where
  /-- Performs a call on behalf of a transaction. -/
  perform : {α : Type} → BackendCall α → TxnId → β → Except StoreError α × β

end ObjectStore
