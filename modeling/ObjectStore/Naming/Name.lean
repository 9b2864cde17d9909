/-
Names that objects are bound to, and the keys by which positions among them are locked.

Whoever looks for a name that is not bound depends on the gap it would stand in, and locks the
next bound name for it.  After the last name there is none, so the end of the name space has a key
of its own, `z.end`.  To keep that key apart from real names, a name that begins with `z` gets
another `z` in front.  The order of names is that of their UTF-8 bytes.
-/
import ObjectStore.Text.Quoted

namespace ObjectStore

namespace Text

/-- The bytes of a text in UTF-8. -/
def utf8 (s : String) : List UInt8 := s.toList.flatMap String.utf8EncodeChar

/-- Whether the bytes of `a` come before those of `b`. -/
def precedes (a b : String) : Bool := decide (utf8 a < utf8 b)

/-- Texts in order; equal ones stay as they are. -/
def sort (l : List String) : List String := l.mergeSort fun a b => !precedes b a

end Text

/-- A name in the store. -/
structure Name where
  text : String
  deriving DecidableEq, Repr

namespace Name

instance : LT Name := ⟨fun a b => Text.utf8 a.text < Text.utf8 b.text⟩

instance (a b : Name) : Decidable (a < b) :=
  inferInstanceAs (Decidable (Text.utf8 a.text < Text.utf8 b.text))

end Name

/-- The key under which a position among the names is locked. -/
structure NameKey where
  text : String
  deriving DecidableEq, Repr, Hashable

namespace NameKey

/-- The key of the position after the last name. -/
def endOfNames : NameKey := ⟨"z.end"⟩

/-- The key of a name. -/
def ofName (name : Name) : NameKey :=
  match name.text.toList with
  | 'z' :: rest => ⟨String.ofList ('z' :: 'z' :: rest)⟩
  | _ => ⟨name.text⟩

/-- The key of a position: that of a name, or the one after all names. -/
def ofPosition : Option Name → NameKey
  | none => endOfNames
  | some name => ofName name

end NameKey

end ObjectStore
