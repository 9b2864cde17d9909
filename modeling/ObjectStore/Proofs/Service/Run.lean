/-
A service under many threads.

Whoever makes a service ready, begins a call, drops a guard, shuts the service down or interrupts a
shutdown does so in sections that nothing comes between, and between two sections anybody else may
have a turn.  The hooks run outside the sections and take as long as they like.  A shutdown that
waits may look again at any time, whether it has been woken or not.

Calls and guards are known by numbers that are given out once.  A guard may be dropped by anybody.

What a look of a shutdown comes to is listed once and for all in `Lifecycle.Look`.
-/
import ObjectStore.FinMap
import ObjectStore.Service.Lifecycle

namespace ObjectStore

/-- How a hook ends. -/
inductive HookEnd where
  | succeeded
  | failed (error : ServiceError)
  | panicked

/-- How far the call that makes the service ready has come. -/
inductive ReadyStage where
  /-- The service is ready, and the hook is about to begin. -/
  | entered
  | inHook
  deriving DecidableEq

/-- What is seen of a service. -/
inductive ServiceEvent where
  | readyHookBegan (n : Nat)
  | readyHookEnded (n : Nat) (how : HookEnd)
  | readyEnded (n : Nat) (result : Except ServiceError Unit)
  | guardMade (g : Nat)
  | guardDropped (g : Nat)
  | shutdownBegan (n : Nat)
  | shutdownEnded (n : Nat) (outcome : ShutdownOutcome)
  | interrupted
  | hookBegan
  | hookEnded (how : HookEnd)

/-- What may happen next to a service. -/
inductive ServiceAction where
  /-- Somebody makes the service ready. -/
  | ready
  /-- A call that makes the service ready enters the hook, or the hook ends. -/
  | proceedReady (n : Nat) (how : HookEnd)
  | startCall
  | drop (g : Nat)
  | shutDown
  /-- A shutdown that waits looks again. -/
  | resume (n : Nat)
  | interrupt
  /-- The worker enters the hook, or the hook ends, or the worker notes that it has ended. -/
  | work (how : HookEnd)

/-- A service, the calls and guards there are, and the log, oldest event first. -/
structure ServiceTraffic where
  lifecycle : Lifecycle
  /-- The number of the next call or guard. -/
  next : Nat
  readies : FinMap Nat ReadyStage
  /-- The guards that have not been dropped. -/
  guards : List Nat
  /-- The shutdowns that wait. -/
  shutdowns : FinMap Nat ShutdownWait
  /-- How the shutdown hook has ended, if it has. -/
  hookEnd : Option HookEnd
  log : List ServiceEvent

/-- What is seen of the call whose ready hook has ended: it answers what the hook comes to, unless the
hook panics, and the call with it. -/
def HookEnd.readyEvents (n : Nat) : HookEnd → List ServiceEvent
  | succeeded => [.readyEnded n (.ok ())]
  | failed e => [.readyEnded n (.error e)]
  | panicked => []

theorem HookEnd.mem_readyEvents {n : Nat} {how : HookEnd} {e : ServiceEvent}
    (h : e ∈ how.readyEvents n) : ∃ result, e = .readyEnded n result := by
  cases how with
  | panicked => exact absurd h List.not_mem_nil
  | _ => exact ⟨_, List.mem_singleton.mp h⟩

theorem HookEnd.ok_mem_readyEvents {m n : Nat} {how : HookEnd}
    (h : .readyEnded m (.ok ()) ∈ how.readyEvents n) : m = n ∧ how = .succeeded := by
  cases how with
  | succeeded => exact ⟨by simpa [readyEvents] using h, rfl⟩
  | failed e => simp [readyEvents] at h
  | panicked => exact absurd h List.not_mem_nil

/-- What is seen of a look of a shutdown. -/
def ShutdownTurn.events (n : Nat) : ShutdownTurn → List ServiceEvent
  | .waiting _ => []
  | .ended outcome => [.shutdownEnded n outcome]

namespace ServiceTraffic

/-- A service that has not been used. -/
def new (name : String) : ServiceTraffic := ⟨.new name, 0, ∅, [], ∅, none, []⟩

/-- A shutdown has come to wait, or has ended. -/
def arrive (n : Nat) (turn : ShutdownTurn) (w : ServiceTraffic) : ServiceTraffic :=
  match turn with
  | .waiting wait => { w with shutdowns := w.shutdowns.insert n wait }
  | .ended outcome =>
    { w with shutdowns := w.shutdowns.erase n, log := w.log ++ [.shutdownEnded n outcome] }

@[simp] theorem arrive_lifecycle (n : Nat) (turn : ShutdownTurn) (w : ServiceTraffic) :
    (w.arrive n turn).lifecycle = w.lifecycle := by
  cases turn <;> rfl

@[simp] theorem arrive_next (n : Nat) (turn : ShutdownTurn) (w : ServiceTraffic) :
    (w.arrive n turn).next = w.next := by
  cases turn <;> rfl

@[simp] theorem arrive_guards (n : Nat) (turn : ShutdownTurn) (w : ServiceTraffic) :
    (w.arrive n turn).guards = w.guards := by
  cases turn <;> rfl

@[simp] theorem arrive_hookEnd (n : Nat) (turn : ShutdownTurn) (w : ServiceTraffic) :
    (w.arrive n turn).hookEnd = w.hookEnd := by
  cases turn <;> rfl

theorem arrive_log (n : Nat) (turn : ShutdownTurn) (w : ServiceTraffic) :
    (w.arrive n turn).log = w.log ++ turn.events n := by
  cases turn
  · rfl
  · exact (List.append_nil w.log).symm

/-- The next move of the worker, if there is one to be made. -/
def work (how : HookEnd) (w : ServiceTraffic) : ServiceTraffic :=
  match w.lifecycle.teardown, w.hookEnd with
  | .started, _ => { w with lifecycle := w.lifecycle.beginTeardown, log := w.log ++ [.hookBegan] }
  | .running, none => { w with hookEnd := some how, log := w.log ++ [.hookEnded how] }
  | .running, some _ => { w with lifecycle := w.lifecycle.endTeardown }
  | .notStarted, _ | .ended, _ => w

/-- Carries an action out; one that is not possible now does nothing. -/
def perform (w : ServiceTraffic) : ServiceAction → ServiceTraffic
  | .ready =>
    match w.lifecycle.beginReady with
    | (.ok true, lifecycle) =>
      { w with lifecycle, next := w.next + 1, readies := w.readies.insert w.next .entered }
    | (.ok false, lifecycle) =>
      { w with lifecycle, next := w.next + 1, log := w.log ++ [.readyEnded w.next (.ok ())] }
    | (.error e, lifecycle) =>
      { w with lifecycle, next := w.next + 1, log := w.log ++ [.readyEnded w.next (.error e)] }
  | .proceedReady n how =>
    match w.readies.get? n with
    | none => w
    | some .entered =>
      { w with readies := w.readies.insert n .inHook, log := w.log ++ [.readyHookBegan n] }
    | some .inHook =>
      { w with
        readies := w.readies.erase n
        log := w.log ++ .readyHookEnded n how :: how.readyEvents n }
  | .startCall =>
    match w.lifecycle.startCall with
    | (.ok _, lifecycle) =>
      { w with
        lifecycle
        next := w.next + 1
        guards := w.next :: w.guards
        log := w.log ++ [.guardMade w.next] }
    | (.error _, lifecycle) => { w with lifecycle }
  | .drop g =>
    if w.guards.contains g then
      { w with
        lifecycle := w.lifecycle.finishCall
        guards := w.guards.erase g
        log := w.log ++ [.guardDropped g] }
    else w
  | .shutDown =>
    let (turn, lifecycle) := w.lifecycle.beginShutdown
    let log := w.log ++ [.shutdownBegan w.next]
    { w with lifecycle, next := w.next + 1, log }.arrive w.next turn
  | .resume n =>
    match w.shutdowns.get? n with
    | none => w
    | some wait =>
      let (turn, lifecycle) := w.lifecycle.resumeShutdown wait
      { w with lifecycle }.arrive n turn
  | .interrupt => { w with lifecycle := w.lifecycle.interrupt, log := w.log ++ [.interrupted] }
  | .work how => w.work how

/-- Carries actions out one after another. -/
def run (actions : List ServiceAction) (w : ServiceTraffic) : ServiceTraffic :=
  actions.foldl perform w

theorem run_concat (actions : List ServiceAction) (a : ServiceAction) (w : ServiceTraffic) :
    w.run (actions ++ [a]) = (w.run actions).perform a := by
  simp [run]

/-- Whether the worker is about to enter the hook, or to note that it has ended. -/
def workerIsDue (w : ServiceTraffic) : Bool :=
  match w.lifecycle.teardown with
  | .started => true
  | .running => w.hookEnd.isSome
  | .notStarted | .ended => false

/-- Nobody has been woken who still sleeps, and the worker has nothing to do but wait for the hook. -/
structure Quiet (w : ServiceTraffic) : Prop where
  worker : w.workerIsDue = false
  shutdowns : ∀ n wait, w.shutdowns.get? n = some wait → w.lifecycle.isAwake wait = false

end ServiceTraffic

/-! ### Looks of a shutdown -/

namespace ServiceState

/-- How far the state is along the life of a service. -/
def rank : ServiceState → Nat
  | initialized => 0
  | ready => 1
  | shuttingDown => 2
  | shutDown => 3

theorem isClosing_iff {s : ServiceState} : s.isClosing = true ↔ 2 ≤ s.rank := by
  cases s <;> decide

/-- Nothing comes after the end. -/
theorem eq_shutDown_iff {s : ServiceState} : s = .shutDown ↔ 3 ≤ s.rank := by
  cases s <;> decide

end ServiceState

namespace Lifecycle

variable {l l' : Lifecycle} {seen : Nat} {turn : ShutdownTurn} {wait : ShutdownWait}

/-- The teardown has been started, or nothing has changed. -/
inductive Starts (l : Lifecycle) : Lifecycle → Prop where
  | refl : Starts l l
  | starts (hcalls : l.calls = 0) (hnew : l.teardown = .notStarted) :
    Starts l { l with teardown := .started }

/-- What a shutdown comes to at a look, if it saw `seen` interrupts when it began. -/
inductive Look (l : Lifecycle) (seen : Nat) : ShutdownTurn → Lifecycle → Prop where
  /-- There are calls in progress. -/
  | drains (hcalls : 0 < l.calls) (hsame : l.interrupts = seen) :
    Look l seen (.waiting ⟨.draining, seen, l.wakeups⟩) l
  | interrupted {l' : Lifecycle} (hstarts : Starts l l') (hmore : l.interrupts ≠ seen) :
    Look l seen (.ended .interrupted) l'
  | completed {l' : Lifecycle} (hstarts : Starts l l') (hover : l.state = .shutDown) :
    Look l seen (.ended .completed) l'
  /-- The teardown has not ended. -/
  | awaits {l' : Lifecycle} (hstarts : Starts l l') (hstarted : l'.teardown ≠ .notStarted)
    (hstate : l.state ≠ .shutDown) (hsame : l.interrupts = seen) :
    Look l seen (.waiting ⟨.tearingDown, seen, l.wakeups⟩) l'

theorem look_awaitTeardown (hstarts : Starts l l') (hstarted : l'.teardown ≠ .notStarted) :
    Look l seen (l'.awaitTeardown seen) l' := by
  obtain ⟨hstate, hinterrupts, hwakeups⟩ : l'.state = l.state ∧ l'.interrupts = l.interrupts ∧
      l'.wakeups = l.wakeups := by
    cases hstarts <;> exact ⟨rfl, rfl, rfl⟩
  unfold awaitTeardown sleep
  rw [hstate, hinterrupts, hwakeups]
  split
  · rename_i hover
    exact .completed hstarts hover
  · rename_i hstate
    split
    · rename_i hmore
      exact .interrupted hstarts hmore
    · rename_i hsame
      exact .awaits hstarts hstarted hstate (Decidable.not_not.mp hsame)

theorem look_drain (l : Lifecycle) (seen : Nat) : Look l seen (l.drain seen).1 (l.drain seen).2 := by
  unfold drain
  split
  · rename_i hcalls
    split
    · rename_i hmore
      exact .interrupted .refl hmore
    · rename_i hsame
      exact .drains hcalls (Decidable.not_not.mp hsame)
  · rename_i hcalls
    simp only
    split
    · rename_i hnew
      exact look_awaitTeardown (.starts (Nat.eq_zero_of_not_pos hcalls) hnew) (by simp)
    · rename_i hstarted
      exact look_awaitTeardown .refl hstarted

/-- A shutdown begins with a look at a service that is closing now, if it was not before. -/
theorem look_beginShutdown (l : Lifecycle) :
    ∃ l₁, (l₁ = l ∧ l.state.isClosing = true ∨
        l₁ = { l with state := .shuttingDown } ∧ l.state.isClosing = false) ∧
      Look l₁ l.interrupts l.beginShutdown.1 l.beginShutdown.2 := by
  unfold beginShutdown
  split
  · rename_i hover
    exact ⟨l, Or.inl ⟨rfl, by rw [hover]; rfl⟩, .completed .refl hover⟩
  · rename_i hstate
    exact ⟨_, Or.inr ⟨rfl, by rw [hstate]; rfl⟩, look_drain { l with state := .shuttingDown } _⟩
  · rename_i hstate
    exact ⟨_, Or.inr ⟨rfl, by rw [hstate]; rfl⟩, look_drain { l with state := .shuttingDown } _⟩
  · rename_i hstate
    exact ⟨l, Or.inl ⟨rfl, by rw [hstate]; rfl⟩, look_drain l _⟩

theorem look_resumeShutdown (h : wait.phase = .tearingDown → l.teardown ≠ .notStarted) :
    Look l wait.interruptsSeen (l.resumeShutdown wait).1 (l.resumeShutdown wait).2 := by
  unfold resumeShutdown
  split
  · exact look_drain l _
  · rename_i hphase
    exact look_awaitTeardown .refl (h hphase)

end Lifecycle

end ObjectStore
