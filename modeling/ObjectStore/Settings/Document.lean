/-
Settings from a JSON document.

Every section is written as an object, whose members may be absent, or as an array of its members
in order, whose end may be missing.  A member that is not known is read past; one that is known
must not be given twice, and its value must be a plain natural number within its limit.
-/
import ObjectStore.Json.Token
import ObjectStore.Settings.Settings
import ObjectStore.Identifier

namespace ObjectStore

open Json

/-- A member of a section: its name, and how its value goes into the section. -/
structure Member (S : Type) where
  name : String
  read : S → List Token → Option (S × List Token)

namespace Member

variable {S : Type}

/-- A member that holds a natural number below a limit. -/
def natural (name : String) (limit : Nat) (put : S → Nat → S) : Member S where
  name := name
  read s
    | .number (some n) :: rest => if n < limit then some (put s n, rest) else none
    | _ => none

/-- Reads the elements of an array from its second half on: a comma or the end. -/
def readElements : List (Member S) → S → List Token → Option (S × List Token)
  | _, s, .closeBracket :: rest => some (s, rest)
  | m :: members, s, .comma :: rest => do
    let (s, rest) ← m.read s rest
    readElements members s rest
  | _, _, _ => none

/-- Reads an array that has been opened. -/
def readArray : List (Member S) → S → List Token → Option (S × List Token)
  | _, s, .closeBracket :: rest => some (s, rest)
  | m :: members, s, ts => do
    let (s, rest) ← m.read s ts
    readElements members s rest
  | [], _, _ => none

/-- Reads one member of an object.  The members left are those that were not given yet. -/
def readMember (all left : List (Member S)) (s : S) :
    List Token → Option (List (Member S) × S × List Token)
  | .string (some key) :: .colon :: rest =>
    match left.find? (·.name = key) with
    | some m => do
      let (s, rest) ← m.read s rest
      return (left.filter (·.name ≠ key), s, rest)
    | none => do
      -- A known member that is not left has been given before.
      if all.any (·.name = key) then none
      else return (left, s, ← skipValue? rest)
  | _ => none

/-- Reads the rest of an object after one of its members. -/
def readMembers (all : List (Member S)) :
    Nat → List (Member S) → S → List Token → Option (S × List Token)
  | 0, _, _, _ => none
  | _ + 1, _, s, .closeBrace :: rest => some (s, rest)
  | fuel + 1, left, s, .comma :: rest => do
    let (left, s, rest) ← readMember all left s rest
    readMembers all fuel left s rest
  | _ + 1, _, _, _ => none

/-- Reads an object that has been opened. -/
def readObject (all : List (Member S)) (s : S) : List Token → Option (S × List Token)
  | .closeBrace :: rest => some (s, rest)
  | ts => do
    let (left, s, rest) ← readMember all all s ts
    readMembers all ts.length left s rest

/-- Reads a section in either form, over the values it has so far. -/
def readSection (all : List (Member S)) (s : S) : List Token → Option (S × List Token)
  | .openBrace :: rest => readObject all s rest
  | .openBracket :: rest => readArray all s rest
  | _ => none

end Member

namespace Settings

/-- Numbers of retries are less than this: they have 32 bits. -/
def retryLimit : Nat := 0x100000000

/-- Times and numbers of shards are less than this: they have 64 bits. -/
def amountLimit : Nat := 0x10000000000000000

/-- The members of the section on the service. -/
def serviceMembers : List (Member ServiceSettings) :=
  [.natural "io_task_max_retries" retryLimit fun s n => { s with ioTaskMaxRetries := n },
    .natural "io_task_wait_time" amountLimit fun s n => { s with ioTaskWaitTime := n }]

/-- The members of the section on transactions. -/
def transactionMembers : List (Member TransactionSettings) :=
  [.natural "timeout" amountLimit fun s n => { s with timeout := n },
    .natural "max_task_retries" retryLimit fun s n => { s with maxTaskRetries := n }]

/-- The members of the section on locks. -/
def lockMembers : List (Member LockSettings) :=
  [.natural "num_shards" amountLimit fun s n => { s with numShards := n }]

/-- The sections. -/
def sections : List (Member Settings) :=
  [{ name := "service",
      read := fun s ts => do
        let (service, rest) ← Member.readSection serviceMembers s.service ts
        return ({ s with service }, rest) },
    { name := "transaction",
      read := fun s ts => do
        let (transaction, rest) ← Member.readSection transactionMembers s.transaction ts
        return ({ s with transaction }, rest) },
    { name := "lock",
      read := fun s ts => do
        let (lock, rest) ← Member.readSection lockMembers s.lock ts
        return ({ s with lock }, rest) }]

/-- Reads a document that holds settings and nothing else. -/
def ofDocument? (text : String) : Option Settings :=
  match tokens? text with
  | none => none
  | some ts =>
    match Member.readSection sections default ts with
    | some (s, []) => some s
    | _ => none

end Settings

/-- Reads a document that holds one natural number below a limit. -/
def naturalDocument? (limit : Nat) (text : String) : Option Nat :=
  match tokens? text with
  | some [.number (some n)] => if n < limit then some n else none
  | _ => none

/-- Reads the number of an object. -/
def ObjectId.ofDocument? (text : String) : Option ObjectId :=
  (naturalDocument? wideLimit text).map (⟨·⟩)

/-- Reads the number of a class. -/
def ClassId.ofDocument? (text : String) : Option ClassId :=
  (naturalDocument? classLimit text).map (⟨·⟩)

/-- Reads the number of a node. -/
def NodeId.ofDocument? (text : String) : Option NodeId :=
  (naturalDocument? wideLimit text).map (⟨·⟩)

end ObjectStore
