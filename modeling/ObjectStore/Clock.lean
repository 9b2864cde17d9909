/-
Clocks whose readings increase.

The hybrid clock follows a physical clock, which may stall or step back, but never repeats itself:
a reading is the physical time or the successor of the last reading, whichever is later.  It is
taken in two steps, between which other readings may be taken; the second step fails if the last
reading is no longer the one that was seen in the first.
-/

namespace ObjectStore

/-- Clocks of type `κ`. -/
class Clock (κ : Type) where
  /-- Takes a reading. -/
  read : κ → Nat × κ

/-- Takes readings one after another. -/
def Clock.readings {κ : Type} [Clock κ] : Nat → κ → List Nat × κ
  | 0, c => ([], c)
  | n + 1, c =>
    let (r, c) := Clock.read c
    let (rs, c) := readings n c
    (r :: rs, c)

/-! ### The hybrid clock -/

/-- The last reading that was given, and the physical time. -/
structure HybridClock where
  last : Nat
  physical : Nat
  deriving DecidableEq, Repr

namespace HybridClock

/-- No reading is later than this one. -/
def latest : Nat := 0xffffffffffffffff

/-- A clock that has not been read. -/
def new (physical : Nat) : HybridClock := ⟨0, physical⟩

/-- The reading to be given after the one that was seen last. -/
def propose (physical seen : Nat) : Nat := Nat.max physical (Nat.min (seen + 1) latest)

/-- Gives a reading if the last one is still the one that was seen. -/
def exchange (seen proposed : Nat) (c : HybridClock) : Bool × HybridClock :=
  if c.last = seen then (true, { c with last := proposed }) else (false, c)

/-- A reading with nothing in between. -/
def read (c : HybridClock) : Nat × HybridClock :=
  let proposed := propose c.physical c.last
  (proposed, (c.exchange c.last proposed).2)

instance : Clock HybridClock := ⟨read⟩

end HybridClock

/-! ### A clock with given readings -/

/-- A clock that gives the readings of a list, and then counts on from the last one. -/
structure ListClock where
  coming : List Nat
  last : Nat
  deriving DecidableEq, Repr

namespace ListClock

/-- A clock with given readings; without any it counts from one. -/
def ofList (readings : List Nat) : ListClock := ⟨readings, 0⟩

/-- The next reading. -/
def read (c : ListClock) : Nat × ListClock :=
  match c.coming with
  | r :: rest => (r, ⟨rest, r⟩)
  | [] => (c.last + 1, ⟨[], c.last + 1⟩)

instance : Clock ListClock := ⟨read⟩

end ListClock

/-- Whether every reading is later than the one before it. -/
def areIncreasing : List Nat → Bool
  | a :: b :: rest => decide (a < b) && areIncreasing (b :: rest)
  | _ => true

/-- How many different readings there are among some that are in order. -/
def countDistinct : List Nat → Nat
  | a :: b :: rest => (if a = b then 0 else 1) + countDistinct (b :: rest)
  | [_] => 1
  | [] => 0

end ObjectStore
