/-
A store in service under many threads.

Whoever has a guard may use the store as part of a counted call, and has to be done with it before the
guard is dropped.  Everybody may also use the store directly, without being counted.  Several calls of
one transaction may be under way at a time; each has a number that is given out once.

The hook of the service shuts the store down.  It looks at the store's own flag and sets it, then has
the backend shut down, then returns, and between these moves the others have their turns.  The store is
shut down in no other way.  `storeService_works` says that the moves in a row are the worker's whole work.
-/
import ObjectStore.Proofs.Service.Run
import ObjectStore.Proofs.Store.Run
import ObjectStore.Service.StoreService

namespace ObjectStore

/-- A call at the store that somebody is in. -/
structure OpenCall where
  t : TxnId
  /-- The guard of the counted call that it is part of. -/
  guard : Option Nat
  call : Call

/-- How far the hook has come. -/
inductive HookStage where
  /-- The store has noted that it is shut down; the backend is to follow. -/
  | noted
  /-- The store has answered. -/
  | answered (how : HookEnd)

/-- How the hook ends when the store has answered. -/
def HookEnd.ofAnswer : Except StoreError Unit → HookEnd
  | .ok _ => .succeeded
  | .error e => .failed (.store e)

/-- What is seen of a store in service. -/
inductive ServedEvent where
  /-- The call of this number shows something. -/
  | seen (n : Nat) (event : Event)
  /-- The backend has been asked to shut down. -/
  | closed

/-- What may happen next to a store in service. -/
inductive ServedAction where
  /-- The service is made use of, or its worker makes a move. -/
  | serve (a : ServiceAction)
  | begin (t : TxnId) (seniority : Seniority) (lifetime : Nat)
  /-- Somebody begins an operation, as part of a counted call or directly, -/
  | operate (guard : Option Nat) (t : TxnId) (op : Operation)
  /-- or a participant call. -/
  | participate (guard : Option Nat) (t : TxnId) (call : ParticipantCall)
  /-- A call takes one step, if it can. -/
  | proceed (n : Nat)
  | cancel (t : TxnId) (cause : AbortCause)
  | wound (t : TxnId) (reason : WoundReason TxnId)
  | describe (t : TxnId) (subject : Subject) (text : String)
  | tick (n : Nat)

/-- A service, its store, the calls at the store, and the log, oldest event first. -/
structure ServedTraffic (ρo ρn β : Type) where
  service : ServiceTraffic
  store : Store ρo ρn β
  /-- The number of the next call. -/
  next : Nat
  calls : FinMap Nat OpenCall
  /-- How far the hook has come since it began. -/
  hook : Option HookStage
  log : List ServedEvent

namespace ServiceTraffic

/-- Whether the worker is in the hook. -/
def isInHook (w : ServiceTraffic) : Bool := w.lifecycle.teardown = .running && w.hookEnd.isNone

end ServiceTraffic

namespace ServedTraffic

variable {ρo ρn β : Type}

/-- A store that has just become a service. -/
def new (store : Store ρo ρn β) : ServedTraffic ρo ρn β :=
  ⟨.new StoreService.serviceName, store, 0, ∅, none, []⟩

/-- The service and its store, without those who use them. -/
def storeService (w : ServedTraffic ρo ρn β) : StoreService ρo ρn β :=
  ⟨w.store, some w.service.lifecycle⟩

/-- Whether a counted call is in a call at the store. -/
def isBusy (w : ServedTraffic ρo ρn β) (g : Nat) : Bool :=
  w.calls.pairs.any fun (_, c) => c.guard = some g

/-- Whether the store may be used: directly by everybody, else by whoever has the guard. -/
def admits (w : ServedTraffic ρo ρn β) : Option Nat → Bool
  | none => true
  | some g => w.service.guards.contains g

/-- A call begins. -/
def receive (c : OpenCall) (store : Store ρo ρn β) (w : ServedTraffic ρo ρn β) :
    ServedTraffic ρo ρn β :=
  { w with store, next := w.next + 1, calls := w.calls.insert w.next c }

/-- A call has taken a step; `left` is what is left of it. -/
def arrive (n : Nat) (c : OpenCall) (left : Option Call) (store : Store ρo ρn β)
    (events : List Event) (w : ServedTraffic ρo ρn β) : ServedTraffic ρo ρn β :=
  { w with
    store
    calls := w.calls.change n (left.map fun call => { c with call })
    log := w.log ++ events.map (.seen n) }

section Actions

variable [Backend β]

/-- The next move of the worker. -/
def work (w : ServedTraffic ρo ρn β) : ServedTraffic ρo ρn β :=
  if w.service.isInHook then
    match w.hook with
    | none =>
      if w.store.isShutDown then { w with hook := some (.answered (.ofAnswer (.ok ()))) }
      else { w with store := { w.store with isShutDown := true }, hook := some .noted }
    | some .noted =>
      let (answer, store) := w.store.call ⟨0⟩ .shutdown
      { w with store, hook := some (.answered (.ofAnswer answer)), log := w.log ++ [.closed] }
    | some (.answered how) => { w with service := w.service.perform (.work how) }
  else { w with service := w.service.perform (.work .succeeded) }

/-- **The worker's moves in a row are its whole work.** -/
theorem storeService_works (w : ServedTraffic ρo ρn β)
    (hstarted : w.service.lifecycle.teardown = .started) (hinside : w.service.hookEnd = none)
    (hhook : w.hook = none) :
    w.work.work.work.work.work.storeService = w.storeService.tearDown := by
  obtain ⟨service, store, next, calls, hook, log⟩ := w
  obtain ⟨lifecycle, number, readies, guards, shutdowns, hookEnd, events⟩ := service
  obtain ⟨name, state, count, teardown, interrupts, wakeups⟩ := lifecycle
  obtain ⟨now, register, objects, names, backend, isShutDown⟩ := store
  obtain rfl : teardown = .started := hstarted
  obtain rfl : hookEnd = none := hinside
  obtain rfl : hook = none := hhook
  cases isShutDown <;> rfl

/-- Carries an action on the service out.  A guard is kept while its call is at the store. -/
def serve (a : ServiceAction) (w : ServedTraffic ρo ρn β) : ServedTraffic ρo ρn β :=
  match a with
  | .work _ => w.work
  | .drop g => if w.isBusy g then w else { w with service := w.service.perform (.drop g) }
  | a => { w with service := w.service.perform a }

variable [Reporter ρo ObjectId] [Reporter ρn NameKey]

/-- A call takes one step, if it can. -/
def proceed (n : Nat) (w : ServedTraffic ρo ρn β) : ServedTraffic ρo ρn β :=
  match w.calls.get? n with
  | none => w
  | some c =>
    match c.call with
    | .operation op stage =>
      if w.store.canStep c.t stage then
        let (stage', store) := w.store.step c.t stage
        w.arrive n c (Call.ofStage op stage') store (Event.ofStep c.t op stage stage')
      else w
    | .participation call stage =>
      if 0 < stage.stepsLeft then
        let (stage', store) := w.store.participantStep c.t stage
        w.arrive n c (Call.ofParticipantStage call stage') store
          (Event.ofParticipantStep c.t call stage stage')
      else w

/-- Carries an action out; one that is not possible now does nothing. -/
def perform (w : ServedTraffic ρo ρn β) : ServedAction → ServedTraffic ρo ρn β
  | .serve a => w.serve a
  | .begin t seniority lifetime =>
    if w.store.register.txns.contains t then w
    else { w with store := w.store.begin t seniority lifetime }
  | .operate guard t op =>
    if w.admits guard && w.store.register.txns.contains t then
      let (stage, store) := w.store.start t op
      w.receive ⟨t, guard, .operation op stage⟩ store
    else w
  | .participate guard t call =>
    if w.admits guard && w.store.register.txns.contains t then
      w.receive ⟨t, guard, .participation call (.enter call)⟩ w.store
    else w
  | .proceed n => w.proceed n
  | .cancel t cause => { w with store := (w.store.updateTxn t (·.abort cause)).2 }
  | .wound t reason => { w with store := (w.store.updateTxn t (·.wound reason)).2 }
  | .describe t subject text => { w with store := w.store.describe t subject text }
  | .tick n => { w with store := w.store.tick n }

/-- Carries actions out one after another. -/
def run (actions : List ServedAction) (w : ServedTraffic ρo ρn β) : ServedTraffic ρo ρn β :=
  actions.foldl perform w

theorem run_induction {P : ServedTraffic ρo ρn β → Prop} {w : ServedTraffic ρo ρn β} (h : P w)
    (hstep : ∀ w a, P w → P (w.perform a)) (actions : List ServedAction) : P (w.run actions) := by
  induction actions generalizing w with
  | nil => exact h
  | cons a rest ih => exact ih (hstep w a h)

end Actions

end ServedTraffic

end ObjectStore
