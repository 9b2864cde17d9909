/-
Letting calls run until each has ended or waits.

`settle` repeats one thing: it picks a call that is due, lets it run until it ends or waits again,
and notes its answer if it has ended.  Every pick uses up one unit of fuel; `defaultFuel` is more
than any use of the library comes near.

Afterwards `Seen.news` tells what is new since the last look.
-/

namespace ObjectStore

/-- Fuel for loops that are bounded by what the calls do and not by the data. -/
def defaultFuel : Nat := 1000000

/-- Runs due calls until none is left; the answers come in the order in which the calls ended. -/
def settle {S A R : Type} (due : S → Option A) (resume : A → S → Option R × S) :
    Nat → S → List (A × R) × S
  | 0, s => ([], s)
  | fuel + 1, s =>
    match due s with
    | none => ([], s)
    | some a =>
      match resume a s with
      | (none, s) => settle due resume fuel s
      | (some r, s) =>
        let (rest, s) := settle due resume fuel s
        ((a, r) :: rest, s)

/-- The answer to a call, and the answers to the others. -/
def takeAnswer {A R : Type} [DecidableEq A] (a : A) (answers : List (A × R)) :
    Option R × List (A × R) :=
  ((answers.find? (·.1 = a)).map (·.2), answers.filter (·.1 ≠ a))

/-- What was last said of things, which are known by labels. -/
abbrev Seen (V : Type) := List (String × V)

/-- The things of which something else is said now, and what is said of all from here on.  Before it is
first looked at, a thing counts as having an initial value. -/
def Seen.news {V : Type} [BEq V] (initial : V) (now : List (String × V)) (seen : Seen V) :
    List (String × V) × Seen V :=
  let changed := now.filter fun (label, v) => (seen.lookup label).getD initial != v
  (changed, changed ++ seen)

end ObjectStore
