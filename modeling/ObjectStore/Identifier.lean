/-
The numbers by which things in and around the store are known.

Each kind of number is a type of its own, so that an object cannot be taken for a transaction.
All are printed in decimal; only a node carries a word in front.
-/
import ObjectStore.Text.Quoted

namespace ObjectStore

/-- The contents of an object, and the description of a class. -/
abbrev Bytes := List UInt8

/-- A stored object.  Numbers are given out in increasing order from one. -/
structure ObjectId where
  val : Nat
  deriving DecidableEq, Repr, Hashable

/-- A transaction. -/
structure TxnId where
  val : Nat
  deriving DecidableEq, Repr, Hashable

/-- A registered class description. -/
structure ClassId where
  val : Nat
  deriving DecidableEq, Repr

/-- A node of the cluster. -/
structure NodeId where
  val : Nat
  deriving DecidableEq, Repr

/-- How many numbers an object, a transaction or a node may have. -/
def wideLimit : Nat := 0x10000000000000000

/-- How many numbers a class may have. -/
def classLimit : Nat := 0x100000000

namespace ObjectId

instance : LT ObjectId := ⟨fun a b => a.val < b.val⟩

instance (a b : ObjectId) : Decidable (a < b) := inferInstanceAs (Decidable (a.val < b.val))

/-- The number after this one.  The numbers form a ring of `wideLimit` members. -/
def next (oid : ObjectId) : ObjectId := ⟨(oid.val + 1) % wideLimit⟩

/-- The number in decimal. -/
def text (oid : ObjectId) : String := toString oid.val

/-- The number together with the word for its kind. -/
def label (oid : ObjectId) : String := s!"ObjectId({oid.val})"

end ObjectId

namespace TxnId

/-- The number in decimal. -/
def text (id : TxnId) : String := toString id.val

/-- The number together with the word for its kind. -/
def label (id : TxnId) : String := s!"TxnId({id.val})"

end TxnId

namespace ClassId

/-- Classes are numbered from one. -/
def isValid (id : ClassId) : Bool := decide (1 ≤ id.val)

/-- The number in decimal. -/
def text (id : ClassId) : String := toString id.val

end ClassId

/-- A node's number behind the word for its kind. -/
def NodeId.text (node : NodeId) : String := s!"node:{node.val}"

end ObjectStore
