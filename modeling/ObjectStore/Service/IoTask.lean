/-
Input and output with retries.

A task that fails is tried again while there are retries left and the node it is aimed at is alive.
When the retries run out the node is reported.  Nothing of this may happen inside a transaction.
-/
import ObjectStore.Transaction.Status

namespace ObjectStore

/-- The transaction that a task runs in, if any. -/
abbrev TaskContext := Option Txn

/-- Whether the transaction of a task has not ended. -/
def TaskContext.inTransaction (c : TaskContext) : Bool := c.any Txn.isOpen

/-- How an input or output task ends. -/
inductive IoOutcome where
  | completed
  /-- The node was found dead before a retry. -/
  | nodeDead
  /-- The retries ran out, and the node was reported. -/
  | reportedFailed
  deriving DecidableEq, Repr

/-- A task, a check of the node, and a report about it, over states of type `σ`. -/
structure IoPlan (σ : Type) where
  /-- Makes an attempt, given the number of those before it; answers whether it succeeded. -/
  attempt : Nat → σ → Bool × σ
  /-- Asks whether the node is alive. -/
  isAlive : σ → Bool × σ
  /-- Reports the node. -/
  report : σ → σ

namespace IoPlan

variable {σ : Type}

/-- Makes attempts after `made` others, with some retries left.  Answers how the task ended and how
many attempts were made in all. -/
def run (p : IoPlan σ) : (retriesLeft made : Nat) → σ → IoOutcome × Nat × σ
  | retriesLeft, made, s =>
    match p.attempt made s with
    | (true, s) => (.completed, made + 1, s)
    | (false, s) =>
      match retriesLeft with
      | 0 => (.reportedFailed, made + 1, p.report s)
      | n + 1 =>
        match p.isAlive s with
        | (false, s) => (.nodeDead, made + 1, s)
        | (true, s) => p.run n (made + 1) s

/-- Runs a task in a context, which must not be that of a transaction. -/
def runIn (context : TaskContext) (retries : Nat) (p : IoPlan σ) (s : σ) :
    Except ServiceError IoOutcome × Nat × σ :=
  if context.inTransaction then (.error .transactionalContext, 0, s)
  else
    let (outcome, made, s) := p.run retries 0 s
    (.ok outcome, made, s)

end IoPlan

end ObjectStore
