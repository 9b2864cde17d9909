/-
Settings from properties.

A property that is present must hold an integer: after trimming, at most one sign and then decimal
digits, within 64 bits.  The integer must lie in the property's range.  The properties are read in
a fixed order, and the first that fails is reported.
-/
import ObjectStore.Settings.Settings
import ObjectStore.Text.Digits

namespace ObjectStore

/-! ### Blanks -/

namespace Text

/-- Closed ranges of the code points with the Unicode property White_Space. -/
def blankRanges : List (Nat × Nat) :=
  [(0x9, 0xd), (0x20, 0x20), (0x85, 0x85), (0xa0, 0xa0), (0x1680, 0x1680), (0x2000, 0x200a),
    (0x2028, 0x2029), (0x202f, 0x202f), (0x205f, 0x205f), (0x3000, 0x3000)]

/-- Whether a character is blank. -/
def isBlank (c : Char) : Bool :=
  blankRanges.any fun (first, last) => decide (first ≤ c.toNat) && decide (c.toNat ≤ last)

/-- The text between the first and the last character that is not blank. -/
def trim (cs : List Char) : List Char :=
  ((cs.dropWhile isBlank).reverse.dropWhile isBlank).reverse

end Text

/-! ### Integers -/

/-- The largest integer of 64 bits. -/
def maxInteger : Int := 0x7fffffffffffffff

/-- The smallest integer of 64 bits. -/
def minInteger : Int := -0x8000000000000000

/-- The number that some decimal digits stand for.  There must be a digit. -/
def decimal? (cs : List Char) : Option Nat :=
  if cs.isEmpty || !cs.all Char.isDigit then none else some (Text.decimal cs)

/-- The integer that a text stands for, if it has at most 64 bits. -/
def integer? (cs : List Char) : Option Int :=
  let value : Option Int :=
    match cs with
    | '-' :: digits => (decimal? digits).map fun n : Nat => -(n : Int)
    | '+' :: digits => (decimal? digits).map fun n : Nat => (n : Int)
    | digits => (decimal? digits).map fun n : Nat => (n : Int)
  value.filter fun v => decide (minInteger ≤ v) && decide (v ≤ maxInteger)

/-- What is left of an integer in a number of bits that knows no sign. -/
def narrow (bits : Nat) (v : Int) : Nat := (BitVec.ofInt bits v).toNat

/-! ### Properties -/

/-- What is wrong with a property. -/
inductive PropertyError where
  | unparsable (name value : String)
  | outOfRange (name : String) (value min max : Int)
  deriving DecidableEq, Repr

/-- The fault in words. -/
def PropertyError.message : PropertyError → String
  | unparsable name value =>
    s!"property {name}: cannot parse {Text.quote value} as an integer"
  | outOfRange name value min max =>
    s!"property {name}: value {value} is outside [{min}, {max}]"

/-- A property: its name, the range of its values, the value it has when it is absent, and in how
many bits its value is kept. -/
structure Property where
  name : String
  min : Int
  max : Int
  absent : Nat
  bits : Nat
  deriving DecidableEq, Repr

namespace Property

/-- The largest count that a property may ask for. -/
def maxCount : Int := 0x7fffffff

/-- Retries of input and output. -/
def ioTaskMaxRetries : Property :=
  ⟨"txstore.io.task.max.retries", 0, maxCount, Settings.defaultService.ioTaskMaxRetries, 32⟩

/-- The pause between two attempts at input or output. -/
def ioTaskWaitTime : Property :=
  ⟨"txstore.io.task.wait.time", 0, maxCount, Settings.defaultService.ioTaskWaitTime, 64⟩

/-- The life time of a transaction. -/
def txnTimeout : Property :=
  ⟨"txstore.txn.timeout", 1, maxInteger, Settings.defaultTransaction.timeout, 64⟩

/-- Retries of a task. -/
def txnMaxRetries : Property :=
  ⟨"txstore.txn.max.retries", 0, maxCount, Settings.defaultTransaction.maxTaskRetries, 32⟩

/-- The number of shards of a lock table. -/
def lockNumShards : Property :=
  ⟨"txstore.lock.num.shards", 1, 65536, Settings.defaultLock.numShards, 64⟩

/-- The integer that a property has among those that are set. -/
def read (p : Property) (props : String → Option String) : Except PropertyError Int :=
  match props p.name with
  | none => .ok p.absent
  | some text =>
    match integer? (Text.trim text.toList) with
    | none => .error (.unparsable p.name text)
    | some v =>
      if v < p.min ∨ p.max < v then .error (.outOfRange p.name v p.min p.max) else .ok v

/-- The integer of a property, kept in its number of bits. -/
def setting (p : Property) (props : String → Option String) : Except PropertyError Nat :=
  (p.read props).map (narrow p.bits)

end Property

/-- Reads all settings from properties. -/
def Settings.ofProperties (props : String → Option String) : Except PropertyError Settings := do
  let ioTaskMaxRetries ← Property.ioTaskMaxRetries.setting props
  let ioTaskWaitTime ← Property.ioTaskWaitTime.setting props
  let timeout ← Property.txnTimeout.setting props
  let maxTaskRetries ← Property.txnMaxRetries.setting props
  let numShards ← Property.lockNumShards.setting props
  return ⟨⟨ioTaskMaxRetries, ioTaskWaitTime⟩, ⟨timeout, maxTaskRetries⟩, ⟨numShards⟩⟩

end ObjectStore
