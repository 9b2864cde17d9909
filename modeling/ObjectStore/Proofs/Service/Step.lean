/-
What one action does to a service under many threads.

`ServiceTraffic.steps_perform` lists, once and for all, what an action can have done: it is one of the
steps below, and to begin a shutdown is two of them.  The invariants go through the list and do not
open the functions of the service again.
-/
import ObjectStore.Proofs.Service.Run

namespace ObjectStore

/-- What events can be about. -/
inductive ServiceEventKind where
  | ready
  | guard
  | shutdown
  | interrupt
  | hook
  deriving DecidableEq

/-- What an event is about. -/
def ServiceEvent.kind : ServiceEvent → ServiceEventKind
  | readyHookBegan _ | readyHookEnded _ _ | readyEnded _ _ => .ready
  | guardMade _ | guardDropped _ => .guard
  | shutdownBegan _ | shutdownEnded _ _ => .shutdown
  | interrupted => .interrupt
  | hookBegan | hookEnded _ => .hook

/-- How many interrupts a log tells of. -/
def interruptsIn (log : List ServiceEvent) : Nat := log.countP fun e => e.kind = .interrupt

namespace Lifecycle

variable {l l' l'' : Lifecycle}

/-- A service has gone on.  Nothing that has been started is undone, and while a shutdown waits for
calls or the teardown, whoever has not been woken has missed nothing. -/
structure Onward (l l' : Lifecycle) : Prop where
  state : l.state.rank ≤ l'.state.rank
  started : l.teardown ≠ .notStarted → l'.teardown ≠ .notStarted
  wakeups : l.wakeups ≤ l'.wakeups
  asleep : l.state = .shuttingDown → l'.wakeups = l.wakeups →
    l'.state = .shuttingDown ∧ l'.interrupts = l.interrupts ∧ (0 < l.calls → 0 < l'.calls)

theorem Onward.refl (l : Lifecycle) : Onward l l :=
  ⟨Nat.le_refl _, id, Nat.le_refl _, fun hstate _ => ⟨hstate, rfl, id⟩⟩

theorem Onward.trans (h : Onward l l') (h' : Onward l' l'') : Onward l l'' where
  state := Nat.le_trans h.state h'.state
  started := fun hstarted => h'.started (h.started hstarted)
  wakeups := Nat.le_trans h.wakeups h'.wakeups
  asleep := by
    intro hstate hsame
    have hwakeups := h.wakeups
    have hwakeups' := h'.wakeups
    obtain ⟨hmid, hinterrupts, hcalls⟩ := h.asleep hstate (by omega)
    obtain ⟨hlast, hinterrupts', hcalls'⟩ := h'.asleep hmid (by omega)
    exact ⟨hlast, hinterrupts'.trans hinterrupts, fun hbusy => hcalls' (hcalls hbusy)⟩

theorem Starts.onward (h : Starts l l') : Onward l l' := by
  cases h with
  | refl => exact .refl l
  | starts => exact ⟨Nat.le_refl _, fun _ => by simp, Nat.le_refl _, fun hstate _ => ⟨hstate, rfl, id⟩⟩

theorem Look.starts {seen : Nat} {turn : ShutdownTurn} (h : Look l seen turn l') : Starts l l' := by
  cases h with
  | drains => exact .refl
  | interrupted hstarts => exact hstarts
  | completed hstarts => exact hstarts
  | awaits hstarts => exact hstarts

theorem beginReady_cases (l : Lifecycle) :
    l.state = .initialized ∧ l.beginReady = (.ok true, { l with state := .ready }) ∨
      l.beginReady = (.ok false, l) ∨ ∃ e, l.beginReady = (.error e, l) := by
  unfold beginReady
  split
  · rename_i hstate
    exact Or.inl ⟨hstate, rfl⟩
  · exact Or.inr (Or.inl rfl)
  · exact Or.inr (Or.inr ⟨_, rfl⟩)
  · exact Or.inr (Or.inr ⟨_, rfl⟩)

theorem onward_finishCall (l : Lifecycle) : Onward l l.finishCall := by
  unfold finishCall
  simp only
  split
  · exact ⟨Nat.le_refl _, id, Nat.le_succ _, fun _ hsame => absurd hsame (by simp [wake])⟩
  · rename_i hbusy
    refine ⟨Nat.le_refl _, id, Nat.le_refl _, fun hstate _ => ⟨hstate, rfl, fun hcalls => ?_⟩⟩
    have hleft : ¬ l.calls - 1 = 0 := fun hnone => hbusy ⟨hstate, hnone⟩
    show 0 < l.calls - 1
    omega

@[simp] theorem finishCall_calls (l : Lifecycle) : l.finishCall.calls = l.calls - 1 := by
  unfold finishCall wake
  simp only
  split <;> rfl

@[simp] theorem finishCall_state (l : Lifecycle) : l.finishCall.state = l.state := by
  unfold finishCall wake
  simp only
  split <;> rfl

@[simp] theorem finishCall_teardown (l : Lifecycle) : l.finishCall.teardown = l.teardown := by
  unfold finishCall wake
  simp only
  split <;> rfl

@[simp] theorem finishCall_interrupts (l : Lifecycle) : l.finishCall.interrupts = l.interrupts := by
  unfold finishCall wake
  simp only
  split <;> rfl

end Lifecycle

namespace ServiceTraffic

open Lifecycle

variable {w w' : ServiceTraffic}

/-- A shutdown has begun when there had been so many interrupts. -/
def Began (w : ServiceTraffic) (n seen : Nat) : Prop :=
  ∃ before since, w.log = before ++ .shutdownBegan n :: since ∧
    interruptsIn before = seen

/-- One thing that can happen to a service. -/
inductive Step (w : ServiceTraffic) : ServiceTraffic → Prop where
  | still : Step w w
  /-- A call that makes the service ready takes one of its steps. -/
  | readies {lifecycle : Lifecycle} {next : Nat} {readies : FinMap Nat ReadyStage}
    {events : List ServiceEvent}
    (hlifecycle : lifecycle = w.lifecycle ∨
      w.lifecycle.state = .initialized ∧ lifecycle = { w.lifecycle with state := .ready })
    (hnext : w.next ≤ next) (hevents : ∀ e ∈ events, e.kind = .ready) :
    Step w { w with lifecycle, next, readies, log := w.log ++ events }
  | startsCall (hopen : w.lifecycle.state.isClosing = false) :
    Step w
      { w with
        lifecycle := { w.lifecycle with calls := w.lifecycle.calls + 1 }
        next := w.next + 1
        guards := w.next :: w.guards
        log := w.log ++ [.guardMade w.next] }
  | drops {g : Nat} (hg : g ∈ w.guards) :
    Step w
      { w with
        lifecycle := w.lifecycle.finishCall
        guards := w.guards.erase g
        log := w.log ++ [.guardDropped g] }
  /-- A shutdown begins. -/
  | closes {lifecycle : Lifecycle}
    (hlifecycle : lifecycle = w.lifecycle ∧ w.lifecycle.state.isClosing = true ∨
      lifecycle = { w.lifecycle with state := .shuttingDown } ∧
        w.lifecycle.state.isClosing = false) :
    Step w { w with lifecycle, next := w.next + 1, log := w.log ++ [.shutdownBegan w.next] }
  /-- A shutdown looks. -/
  | looks {n seen : Nat} {turn : ShutdownTurn} {lifecycle : Lifecycle} (hbegan : w.Began n seen)
    (hclosing : w.lifecycle.state.isClosing = true) (hlook : Look w.lifecycle seen turn lifecycle) :
    Step w ({ w with lifecycle }.arrive n turn)
  | interrupts :
    Step w { w with lifecycle := w.lifecycle.interrupt, log := w.log ++ [.interrupted] }
  /-- The worker enters the hook. -/
  | enters (hstarted : w.lifecycle.teardown = .started) :
    Step w { w with lifecycle := w.lifecycle.beginTeardown, log := w.log ++ [.hookBegan] }
  | leaves (how : HookEnd) (hrunning : w.lifecycle.teardown = .running) (hinside : w.hookEnd = none) :
    Step w { w with hookEnd := some how, log := w.log ++ [.hookEnded how] }
  /-- The worker notes that the hook has ended. -/
  | ends (hrunning : w.lifecycle.teardown = .running) (hover : w.hookEnd.isSome = true) :
    Step w { w with lifecycle := w.lifecycle.endTeardown }

/-- **What an action can have done.** -/
theorem steps_perform (w : ServiceTraffic) (a : ServiceAction)
    (hinterrupts : interruptsIn w.log = w.lifecycle.interrupts)
    (hwaits : ∀ n wait, w.shutdowns.get? n = some wait → w.Began n wait.interruptsSeen ∧
      w.lifecycle.state.isClosing = true ∧
        (wait.phase = .tearingDown → w.lifecycle.teardown ≠ .notStarted)) :
    ∃ between, w.Step between ∧ between.Step (w.perform a) := by
  cases a with
  | ready =>
      refine ⟨w, .still, ?_⟩
      simp only [perform]
      rcases beginReady_cases w.lifecycle with ⟨hstate, hready⟩ | hready | ⟨e, hready⟩
      · rw [hready]
        rw [← List.append_nil w.log]
        exact .readies (Or.inr ⟨hstate, rfl⟩) (Nat.le_succ w.next) (by simp)
      · rw [hready]
        exact .readies (Or.inl rfl) (Nat.le_succ w.next) (by simp [ServiceEvent.kind])
      · rw [hready]
        exact .readies (Or.inl rfl) (Nat.le_succ w.next) (by simp [ServiceEvent.kind])
  | proceedReady n how =>
      refine ⟨w, .still, ?_⟩
      simp only [perform]
      split
      · exact .still
      · exact .readies (Or.inl rfl) (Nat.le_refl _) (by simp [ServiceEvent.kind])
      · refine .readies (Or.inl rfl) (Nat.le_refl _) fun e he => ?_
        rcases List.mem_cons.mp he with rfl | hanswer
        · rfl
        · obtain ⟨result, rfl⟩ := HookEnd.mem_readyEvents hanswer
          rfl
  | startCall =>
      refine ⟨w, .still, ?_⟩
      simp only [perform, startCall]
      by_cases hclosing : w.lifecycle.isShuttingDown = true
      · rw [if_pos hclosing]
        exact .still
      · rw [if_neg hclosing]
        exact .startsCall (Bool.of_not_eq_true hclosing)
  | drop g =>
      refine ⟨w, .still, ?_⟩
      simp only [perform]
      split
      · rename_i hg
        exact .drops (List.contains_iff_mem.mp hg)
      · exact .still
  | shutDown =>
      obtain ⟨l, hl, hlook⟩ := look_beginShutdown w.lifecycle
      refine ⟨_, .closes hl, .looks ⟨w.log, [], rfl, hinterrupts⟩ ?_ hlook⟩
      rcases hl with ⟨rfl, hclosing⟩ | ⟨rfl, -⟩
      · exact hclosing
      · rfl
  | resume n =>
      refine ⟨w, .still, ?_⟩
      simp only [perform]
      split
      · exact .still
      · rename_i wait hwait
        obtain ⟨hbegan, hclosing, hstarted⟩ := hwaits n wait hwait
        exact .looks hbegan hclosing (look_resumeShutdown hstarted)
  | interrupt => exact ⟨w, .still, .interrupts⟩
  | work how =>
      refine ⟨w, .still, ?_⟩
      simp only [perform, work]
      split
      · rename_i hstarted
        exact .enters hstarted
      · rename_i hrunning hinside
        exact .leaves how hrunning hinside
      · rename_i hrunning hover
        exact .ends hrunning (by rw [hover]; rfl)
      · exact .still
      · exact .still

/-- A service only goes on. -/
theorem Step.onward (h : w.Step w') : Onward w.lifecycle w'.lifecycle := by
  cases h with
  | still => exact .refl _
  | readies hlifecycle =>
      rcases hlifecycle with rfl | ⟨hstate, rfl⟩
      · exact .refl _
      · exact ⟨by simp [hstate, ServiceState.rank], id, Nat.le_refl _,
          fun hclosing => absurd (hstate.symm.trans hclosing) (by simp)⟩
  | startsCall hopen =>
      refine ⟨Nat.le_refl _, id, Nat.le_refl _, fun hclosing => ?_⟩
      rw [hclosing] at hopen
      cases hopen
  | drops => exact onward_finishCall _
  | closes hlifecycle =>
      rcases hlifecycle with ⟨rfl, -⟩ | ⟨rfl, hopen⟩
      · exact .refl _
      · refine ⟨?_, id, Nat.le_refl _, fun hclosing => ?_⟩
        · cases hstate : w.lifecycle.state with
          | initialized => simp [ServiceState.rank]
          | ready => simp [ServiceState.rank]
          | shuttingDown => simp [ServiceState.rank]
          | shutDown =>
              rw [hstate] at hopen
              cases hopen
        · rw [hclosing] at hopen
          cases hopen
  | looks _ _ hlook =>
      rw [arrive_lifecycle]
      exact hlook.starts.onward
  | interrupts =>
      exact ⟨Nat.le_refl _, id, Nat.le_succ _, fun _ hsame => absurd hsame (by simp [interrupt, wake])⟩
  | enters =>
      exact ⟨Nat.le_refl _, fun _ => by simp [beginTeardown], Nat.le_refl _,
        fun hstate _ => ⟨hstate, rfl, id⟩⟩
  | leaves => exact .refl _
  | ends =>
      refine ⟨?_, fun _ => by simp [endTeardown, wake], Nat.le_succ _,
        fun _ hsame => absurd hsame (by simp [endTeardown, wake])⟩
      cases w.lifecycle.state <;> simp [endTeardown, wake, ServiceState.rank]

theorem Step.next_le (h : w.Step w') : w.next ≤ w'.next := by
  cases h with
  | readies _ hnext => exact hnext
  | startsCall => exact Nat.le_succ _
  | closes => exact Nat.le_succ _
  | @looks n seen turn lifecycle =>
      have hsame : ({ w with lifecycle }.arrive n turn).next = w.next := arrive_next n turn _
      omega
  | _ => exact Nat.le_refl _

theorem Step.log_append (h : w.Step w') : ∃ events, w'.log = w.log ++ events := by
  cases h with
  | still => exact ⟨[], (List.append_nil _).symm⟩
  | looks => exact ⟨_, arrive_log _ _ _⟩
  | ends => exact ⟨[], (List.append_nil _).symm⟩
  | _ => exact ⟨_, rfl⟩

/-- Only a look changes what waits. -/
theorem Step.shutdowns_eq (h : w.Step w') : w'.shutdowns = w.shutdowns ∨
    ∃ n seen turn lifecycle, w.Began n seen ∧ w.lifecycle.state.isClosing = true ∧
      Look w.lifecycle seen turn lifecycle ∧ w' = { w with lifecycle }.arrive n turn := by
  cases h with
  | looks hbegan hclosing hlook => exact Or.inr ⟨_, _, _, _, hbegan, hclosing, hlook, rfl⟩
  | _ => exact Or.inl rfl

end ServiceTraffic

end ObjectStore
