/-
A backend in memory that can be told to misbehave.

For every kind of call there is a queue that says of each call to come whether it fails, and how.
A call that fails does nothing else.  Another queue holds answers to the next questions for a
bound name; when it is empty the question is answered from memory.
-/
import ObjectStore.Backend.Memory

namespace ObjectStore

/-- Memory together with what its next calls shall do. -/
structure ScriptedMemory where
  memory : Memory
  nextNames : List (Option Name)
  faults : List (BackendKind × Option Fault)

namespace ScriptedMemory

/-- No data and no script. -/
def empty : ScriptedMemory := ⟨.empty, [], []⟩

/-- Queues an answer to a question for the next name. -/
def answerNext (answers : List (Option Name)) (b : ScriptedMemory) : ScriptedMemory :=
  { b with nextNames := b.nextNames ++ answers }

/-- Queues what a call of a kind shall do: fail, or go through. -/
def failNext (kind : BackendKind) (fault : Option Fault) (b : ScriptedMemory) : ScriptedMemory :=
  { b with faults := b.faults ++ [(kind, fault)] }

/-- Takes the first entry of a kind out of the queue. -/
def takeFault (kind : BackendKind) (b : ScriptedMemory) : Option Fault × ScriptedMemory :=
  match b.faults.find? (·.1 = kind) with
  | none => (none, b)
  | some (_, fault) => (fault, { b with faults := b.faults.eraseP (·.1 = kind) })

/-- Answers from the script, if it says anything, or from memory. -/
def performScript {α : Type} (call : BackendCall α) (t : TxnId) (b : ScriptedMemory) :
    Except StoreError α × ScriptedMemory :=
  match call, b.nextNames with
  | .nextName _, answer :: rest => (.ok answer, { b with nextNames := rest })
  | call, _ =>
    let (result, memory) := b.memory.perform call t
    (result, { b with memory })

/-- Performs a call, or lets it fail. -/
def perform {α : Type} (call : BackendCall α) (t : TxnId) (b : ScriptedMemory) :
    Except StoreError α × ScriptedMemory :=
  match b.takeFault call.kind with
  | (some fault, b) => (.error (fault t), b)
  | (none, b) => b.performScript call t

instance : Backend ScriptedMemory := ⟨perform⟩

end ScriptedMemory

end ObjectStore
