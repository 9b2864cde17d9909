/-
Several threads at one transaction.

A thread that is in a participant call takes one indivisible step at a time, and between two of its
steps the other threads may take theirs: participant calls of a crowd interleave in every order.
The program may abort the transaction at any moment, another table may wound it, time passes, and
the backend may be shut down.

A look at the status that lets a call in holds for that moment only.  Two things can happen to it
before the call has made use of it, and `collides` finds them: the transaction is aborted while a
commit of it is on its way, and a commit is let in while the writes have yet to be prepared.
-/
import ObjectStore.Proofs.Store.Participation

namespace ObjectStore

namespace ParticipantStage

/-- Whether the call has been let in, and has yet to have the writes prepared or carried out. -/
def isPreparing : ParticipantStage → Bool
  | backend .prepare | backend .prepareAndCommit => true
  | _ => false

/-- Whether the call has been let in, and may yet note a commit. -/
def isCommitting : ParticipantStage → Bool
  | backend .abort => false
  | backend _ => true
  | committed _ => true
  | _ => false

/-- Whether the backend has carried the writes out, and the commit is about to be noted. -/
def isNoting : ParticipantStage → Bool
  | committed _ => true
  | _ => false

end ParticipantStage

/-- A participant call that a thread is in. -/
structure Visit where
  call : ParticipantCall
  stage : ParticipantStage

/-- What is seen of a crowd. -/
inductive CrowdEvent where
  /-- The program asked for an abort, and was told whether that moved the transaction. -/
  | cancelled (moved : Bool)
  | participated (call : ParticipantCall) (result : Except StoreError Reply)

namespace CrowdEvent

/-- Whether somebody has been told that the transaction is aborted. -/
def isAbort : CrowdEvent → Bool
  | cancelled moved => moved
  | participated .abort (.ok _) => true
  | _ => false

/-- Whether somebody has been told that the transaction is committed. -/
def isCommit : CrowdEvent → Bool
  | participated .commit (.ok _) => true
  | participated .prepareAndCommit (.ok _) => true
  | _ => false

end CrowdEvent

/-- What may happen next in a crowd. -/
inductive CrowdAction where
  /-- A thread that is in no call begins one. -/
  | call (thread : Nat) (call : ParticipantCall)
  /-- The call of a thread takes one step. -/
  | proceed (thread : Nat)
  /-- The program aborts the transaction. -/
  | cancel (cause : AbortCause)
  /-- A locker of another table asks the transaction to give up. -/
  | wound (reason : WoundReason TxnId)
  | tick (n : Nat)
  | shutdown

/-- A store, the calls that threads are in, and the log, oldest event first. -/
structure Crowd (ρo ρn : Type) where
  store : Store ρo ρn Memory
  visits : FinMap Nat Visit
  log : List CrowdEvent

namespace Crowd

variable {ρo ρn : Type}

/-- The crowd before anybody has called. -/
def new (s : Store ρo ρn Memory) : Crowd ρo ρn := ⟨s, ∅, []⟩

/-- The crowd when the call of a thread has come to a stage. -/
def arrive (thread : Nat) (call : ParticipantCall) (stage : ParticipantStage)
    (store : Store ρo ρn Memory) (c : Crowd ρo ρn) : Crowd ρo ρn :=
  match stage with
  | .ended result =>
    { store, visits := c.visits.erase thread, log := c.log ++ [.participated call result] }
  | _ => { c with store, visits := c.visits.insert thread ⟨call, stage⟩ }

/-- Whether some thread is at a stage of a kind. -/
def someAt (kind : ParticipantStage → Bool) (c : Crowd ρo ρn) : Bool :=
  c.visits.pairs.any fun (_, v) => kind v.stage

/-- Whether an action on transaction `t` spoils a look at the status that another call relies on. -/
def collides (t : TxnId) (c : Crowd ρo ρn) : CrowdAction → Bool
  | .cancel _ => (c.store.register.find t).isOpen && c.someAt ParticipantStage.isCommitting
  | .proceed thread =>
    match c.visits.get? thread with
    | some ⟨_, .enter .abort⟩ =>
      (c.store.register.find t).beginParticipantAbort.1.isOk &&
        c.someAt ParticipantStage.isCommitting
    | some ⟨_, .enter .commit⟩ =>
      (c.store.register.find t).checkPrepared.isOk && c.someAt ParticipantStage.isPreparing
    | _ => false
  | _ => false

theorem someAt_eq_false_iff {kind : ParticipantStage → Bool} {c : Crowd ρo ρn} :
    c.someAt kind = false ↔ ∀ thread v, c.visits.get? thread = some v → kind v.stage = false := by
  simp [someAt, FinMap.get?_eq_some_iff]

variable [Reporter ρo ObjectId] [Reporter ρn NameKey]

/-- Carries an action on transaction `t` out; one that is not possible now does nothing. -/
def perform (t : TxnId) (c : Crowd ρo ρn) : CrowdAction → Crowd ρo ρn
  | .call thread call =>
    if c.visits.contains thread then c
    else { c with visits := c.visits.insert thread ⟨call, .enter call⟩ }
  | .proceed thread =>
    match c.visits.get? thread with
    | none => c
    | some v =>
      let (stage, store) := c.store.participantStep t v.stage
      c.arrive thread v.call stage store
  | .cancel cause =>
    let (moved, store) := c.store.updateTxn t (·.abort cause)
    { c with store, log := c.log ++ [.cancelled moved] }
  | .wound reason => { c with store := (c.store.updateTxn t (·.wound reason)).2 }
  | .tick n => { c with store := c.store.tick n }
  | .shutdown => { c with store := c.store.shutdown.2 }

/-- Carries actions on transaction `t` out one after another. -/
def run (t : TxnId) (actions : List CrowdAction) (c : Crowd ρo ρn) : Crowd ρo ρn :=
  actions.foldl (perform t) c

/-- Whether none of the actions collides when its turn comes. -/
def isClear (t : TxnId) : List CrowdAction → Crowd ρo ρn → Bool
  | [], _ => true
  | a :: rest, c => !c.collides t a && (c.perform t a).isClear t rest

/-- What holds at the start, and is kept by every action that does not collide, holds after every
run without a collision. -/
theorem run_induction {t : TxnId} {P : Crowd ρo ρn → Prop} {c : Crowd ρo ρn} (h : P c)
    (hstep : ∀ c a, P c → c.collides t a = false → P (c.perform t a)) (actions : List CrowdAction)
    (hclear : c.isClear t actions = true) : P (c.run t actions) := by
  induction actions generalizing c with
  | nil => exact h
  | cons a rest ih =>
      obtain ⟨hthis, hrest⟩ := Bool.and_eq_true_iff.mp hclear
      exact ih (hstep c a h (by simpa using hthis)) hrest

end Crowd

end ObjectStore
