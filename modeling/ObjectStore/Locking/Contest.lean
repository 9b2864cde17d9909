/-
One attempt to get a key.

An attempt looks at the entries of the key in four stages.  Holders whose deadline has passed are
asked to give up.  Then a conflicting entry of higher precedence, granted or queued, blocks the
request.  Otherwise every conflicting holder is of lower precedence and is asked to give up; one
that refuses still blocks.  What is left to happen is the grant.

Whoever gives up loses its entry, those who listened to that entry wake, and so does the call the
loser has parked in this table.
-/
import ObjectStore.FinMap
import ObjectStore.Locking.Entry

namespace ObjectStore

/-- How an attempt ends. -/
inductive Verdict (L : Type) where
  | granted
  /-- The entry of `holder` stands in the way. -/
  | blocked (holder : L)
  deriving DecidableEq, Repr

/-- The lockers, the entries of one key, and the signals given so far. -/
structure Contest (σ L : Type) where
  lockers : σ
  entries : List (LockEntry L)
  woken : List Signal

namespace Contest

variable {σ L : Type} [Lockers σ L] [DecidableEq L]

/-- The entry of a locker on this key. -/
def own (c : Contest σ L) (locker : L) : Option (LockEntry L) :=
  c.entries.find? (·.owner = locker)

/-- Takes a locker's entry away and wakes its listeners. -/
def remove (c : Contest σ L) (locker : L) : Contest σ L :=
  match c.own locker with
  | none => c
  | some e =>
    { c with
      entries := c.entries.eraseP (·.owner = locker)
      woken := c.woken ++ e.listeners }

/-- Asks a holder to give up.  If it does, its entry goes and its parked call wakes. -/
def oust (parked : FinMap L Signal) (reason : WoundReason L) (c : Contest σ L) (holder : L) :
    Contest σ L :=
  match Lockers.wound c.lockers holder reason with
  | (false, lockers) => { c with lockers }
  | (true, lockers) =>
    let c := { c with lockers }.remove holder
    { c with woken := c.woken ++ (parked.get? holder).toList }

/-- Asks every other holder whose deadline has passed to give up. -/
def evictExpired (now : Nat) (parked : FinMap L Signal) (locker : L) (c : Contest σ L) :
    Contest σ L :=
  let overdue := c.entries.filter fun e => e.granted && decide (e.owner ≠ locker) && e.isExpired now
  (overdue.map (·.owner)).foldl (oust parked .expired) c

/-- Asks every conflicting holder to give up. -/
def woundRivals (parked : FinMap L Signal) (locker : L) (mode : LockMode) (c : Contest σ L) :
    Contest σ L :=
  let rivals := c.entries.filter fun e => e.granted && e.rivals locker mode
  (rivals.map (·.owner)).foldl (oust parked (.outranked locker)) c

/-- Adds an entry at the end. -/
def push (locker : L) (mode : LockMode) (granted : Bool) (c : Contest σ L) : Contest σ L :=
  { c with entries := c.entries ++ [.ofRequest c.lockers locker mode granted] }

/-- Queues the request, unless the locker has an entry or does not wish to wait. -/
def enqueue (wait : Bool) (locker : L) (mode : LockMode) (c : Contest σ L) : Contest σ L :=
  if wait && (c.own locker).isNone then c.push locker mode false else c

/-- Makes the locker a holder, in the stronger of its old and its new mode. -/
def grant (locker : L) (mode : LockMode) (c : Contest σ L) : Contest σ L :=
  match c.own locker with
  | none => c.push locker mode true
  | some e =>
    let raised := { e with mode := e.mode.max mode, granted := true, listeners := [] }
    { c with
      entries := c.entries.map fun e' => if e'.owner = locker then raised else e'
      woken := c.woken ++ e.listeners }

/-- Whether the locker already holds the key in a mode that is strong enough. -/
def holds (locker : L) (mode : LockMode) (c : Contest σ L) : Bool :=
  match c.own locker with
  | none => false
  | some e => e.granted && decide (e.mode.max mode = e.mode)

/-- The eldest conflicting entry, granted or queued, of higher precedence than the locker. -/
def elder (locker : L) (mode : LockMode) (c : Contest σ L) : Option (LockEntry L) :=
  let rank := Lockers.rank c.lockers locker
  LockEntry.eldest (c.entries.filter fun e => e.rivals locker mode && e.rank.before rank)

/-- The eldest conflicting entry that is granted. -/
def holdout (locker : L) (mode : LockMode) (c : Contest σ L) : Option (LockEntry L) :=
  LockEntry.eldest (c.entries.filter fun e => e.rivals locker mode && e.granted)

/-- One attempt by `locker` to get the key in `mode`; with `wait` a blocked request is queued. -/
def attempt (now : Nat) (parked : FinMap L Signal) (locker : L) (mode : LockMode) (wait : Bool)
    (c : Contest σ L) : Verdict L × Contest σ L :=
  let c := c.evictExpired now parked locker
  if c.holds locker mode then (.granted, c)
  else
    match c.elder locker mode with
    | some e => (.blocked e.owner, c.enqueue wait locker mode)
    | none =>
      let c := c.woundRivals parked locker mode
      match c.holdout locker mode with
      | some e => (.blocked e.owner, c.enqueue wait locker mode)
      | none => (.granted, c.grant locker mode)

end Contest

end ObjectStore
