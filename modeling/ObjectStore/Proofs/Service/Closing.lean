/-
How a service is shut down.

`Sound` ties the parts of the state to each other; `GuardLog`, `HookLog` and `ShutdownLog` tie them to
the log; `Waits` says what a shutdown that waits may rely on.  Every step keeps them all.  The log is in
order: `Fits` says of each event what must have come before it, so that one can read off the log that
the hook begins once, when no guard is left, and that no shutdown ends too early.

The main statement is `closes_in_order`.  Its last part is that nobody sleeps in vain: in a service
that is quiet, a shutdown that waits has calls or the hook to wait for, and has not been interrupted.
-/
import ObjectStore.Proofs.InOrder
import ObjectStore.Proofs.Service.Step

namespace ObjectStore

namespace ServiceEvent

/-- Whether an event may come after those that came before. -/
def Fits (before : List ServiceEvent) : ServiceEvent → Prop
  | guardMade g => guardMade g ∉ before ∧ hookBegan ∉ before
  | guardDropped g => guardMade g ∈ before ∧ guardDropped g ∉ before
  | shutdownBegan n => shutdownBegan n ∉ before
  | shutdownEnded _ .completed => ∃ how, hookEnded how ∈ before
  | shutdownEnded n .interrupted =>
    ∃ earlier since, before = earlier ++ shutdownBegan n :: since ∧ interrupted ∈ since
  | hookBegan => hookBegan ∉ before ∧ ∀ g, guardMade g ∈ before → guardDropped g ∈ before
  | hookEnded _ => hookBegan ∈ before ∧ ∀ how, hookEnded how ∉ before
  | _ => True

theorem fits_of_ready {e : ServiceEvent} (he : e.kind = .ready) (before : List ServiceEvent) :
    e.Fits before := by
  cases e <;> cases he <;> trivial

end ServiceEvent

namespace ServiceTraffic

open Lifecycle ServiceEvent

variable {w w' : ServiceTraffic} {n : Nat} {wait : ShutdownWait}

/-- What holds of the state of a service. -/
structure Sound (w : ServiceTraffic) : Prop where
  calls : w.lifecycle.calls = w.guards.length
  nodup : w.guards.Nodup
  numbered : ∀ g ∈ w.guards, g < w.next
  /-- Once the teardown has been started there is no guard, nor can there be a new one. -/
  closed : w.lifecycle.teardown ≠ .notStarted →
    w.guards = [] ∧ w.lifecycle.state.isClosing = true
  finished : w.lifecycle.state = .shutDown ↔ w.lifecycle.teardown = .ended
  inside : w.hookEnd.isSome = true →
    w.lifecycle.teardown = .running ∨ w.lifecycle.teardown = .ended
  ended : w.lifecycle.teardown = .ended → w.hookEnd.isSome = true

/-- What the log tells of the guards. -/
structure GuardLog (w : ServiceTraffic) : Prop where
  made : ∀ g, guardMade g ∈ w.log → g < w.next
  dropped : ∀ g, guardDropped g ∈ w.log → guardMade g ∈ w.log
  live : ∀ g, g ∈ w.guards ↔ guardMade g ∈ w.log ∧ guardDropped g ∉ w.log

/-- What the log tells of the hook. -/
structure HookLog (w : ServiceTraffic) : Prop where
  began : hookBegan ∈ w.log ↔ w.lifecycle.teardown = .running ∨ w.lifecycle.teardown = .ended
  ended : ∀ how, hookEnded how ∈ w.log ↔ w.hookEnd = some how

/-- What the log tells of shutdowns and interrupts. -/
structure ShutdownLog (w : ServiceTraffic) : Prop where
  interrupts : interruptsIn w.log = w.lifecycle.interrupts
  begun : ∀ n, shutdownBegan n ∈ w.log → n < w.next
  completed : ∀ n, shutdownEnded n .completed ∈ w.log → w.lifecycle.state = .shutDown

/-- What a shutdown that waits may rely on. -/
structure Waits (w : ServiceTraffic) (n : Nat) (wait : ShutdownWait) : Prop where
  began : w.Began n wait.interruptsSeen
  closing : w.lifecycle.state.isClosing = true
  started : wait.phase = .tearingDown → w.lifecycle.teardown ≠ .notStarted
  seen : wait.wakeupsSeen ≤ w.lifecycle.wakeups
  /-- Who has not been woken has missed nothing. -/
  asleep : wait.wakeupsSeen = w.lifecycle.wakeups →
    w.lifecycle.state = .shuttingDown ∧ w.lifecycle.interrupts = wait.interruptsSeen ∧
      (wait.phase = .draining → 0 < w.lifecycle.calls)

/-! ### The state -/

theorem Sound.state_of_open (h : w.Sound) (hopen : w.lifecycle.state.isClosing = false) :
    w.lifecycle.teardown = .notStarted := by
  by_contra hstarted
  rw [(h.closed hstarted).2] at hopen
  cases hopen

theorem shutDown_of_rank {s s' : ServiceState} (h : s = .shutDown) (hrank : s.rank ≤ s'.rank) :
    s' = .shutDown :=
  ServiceState.eq_shutDown_iff.mpr (Nat.le_trans (ServiceState.eq_shutDown_iff.mp h) hrank)

theorem state_of_closing {s : ServiceState} (h : s.isClosing = true) (hnot : s ≠ .shutDown) :
    s = .shuttingDown := by
  cases s with
  | initialized => cases h
  | ready => cases h
  | shuttingDown => rfl
  | shutDown => exact absurd rfl hnot

/-- While calls are in progress the teardown has not been started. -/
theorem Sound.teardown_of_calls (h : w.Sound) (hcalls : 0 < w.lifecycle.calls) :
    w.lifecycle.teardown = .notStarted := by
  by_contra hstarted
  rw [h.calls, (h.closed hstarted).1] at hcalls
  exact absurd hcalls (by simp)

theorem Sound.step (h : w.Sound) (hstep : w.Step w') : w'.Sound := by
  cases hstep with
  | still => exact h
  | readies hlifecycle hnext =>
      have hnumbered := fun g hg => Nat.lt_of_lt_of_le (h.numbered g hg) hnext
      rcases hlifecycle with rfl | ⟨hstate, rfl⟩
      · exact ⟨h.calls, h.nodup, hnumbered, h.closed, h.finished, h.inside, h.ended⟩
      · have hnew := h.state_of_open (by rw [hstate]; rfl)
        exact ⟨h.calls, h.nodup, hnumbered, fun hstarted => absurd hnew hstarted, by simp [hnew],
          h.inside, h.ended⟩
  | startsCall hopen =>
      have hnew := h.state_of_open hopen
      have hfresh : w.next ∉ w.guards := fun hin => Nat.lt_irrefl _ (h.numbered _ hin)
      refine ⟨by simp [h.calls], List.nodup_cons.mpr ⟨hfresh, h.nodup⟩, fun g hg => ?_,
        fun hstarted => absurd hnew hstarted, h.finished, h.inside, h.ended⟩
      rcases List.mem_cons.mp hg with rfl | hin
      · exact Nat.lt_succ_self _
      · exact Nat.lt_succ_of_lt (h.numbered g hin)
  | @drops g hg =>
      refine ⟨?_, h.nodup.erase g, fun g' hg' => h.numbered g' (List.mem_of_mem_erase hg'), ?_, ?_,
        ?_, ?_⟩
      · simp [h.calls, List.length_erase_of_mem hg]
      · intro hstarted
        have hnone := (h.closed (by simpa using hstarted)).1
        rw [hnone] at hg
        exact absurd hg List.not_mem_nil
      · simpa using h.finished
      · simpa using h.inside
      · simpa using h.ended
  | closes hlifecycle =>
      have hnumbered := fun g hg => Nat.lt_succ_of_lt (h.numbered g hg)
      rcases hlifecycle with ⟨rfl, -⟩ | ⟨rfl, hopen⟩
      · exact ⟨h.calls, h.nodup, hnumbered, h.closed, h.finished, h.inside, h.ended⟩
      · have hnew := h.state_of_open hopen
        exact ⟨h.calls, h.nodup, hnumbered, fun hstarted => absurd hnew hstarted, by simp [hnew],
          h.inside, h.ended⟩
  | looks hbegan hclosing hlook =>
      cases hlook.starts with
      | refl =>
          refine ⟨?_, ?_, ?_, ?_, ?_, ?_, ?_⟩ <;> simp only [arrive_lifecycle, arrive_guards,
            arrive_hookEnd, arrive_next]
          · exact h.calls
          · exact h.nodup
          · exact h.numbered
          · exact h.closed
          · exact h.finished
          · exact h.inside
          · exact h.ended
      | starts hcalls hnew =>
          have hnone : w.guards = [] := List.eq_nil_of_length_eq_zero (h.calls.symm.trans hcalls)
          refine ⟨?_, ?_, ?_, ?_, ?_, ?_, ?_⟩ <;> simp only [arrive_lifecycle, arrive_guards,
            arrive_hookEnd, arrive_next]
          · exact h.calls
          · exact h.nodup
          · exact h.numbered
          · exact fun _ => ⟨hnone, hclosing⟩
          · simpa [hnew] using h.finished
          · exact fun hover => absurd (h.inside hover) (by simp [hnew])
          · simp
  | interrupts => exact ⟨h.calls, h.nodup, h.numbered, h.closed, h.finished, h.inside, h.ended⟩
  | enters hstarted =>
      have hclosed := h.closed (by simp [hstarted])
      refine ⟨h.calls, h.nodup, h.numbered, fun _ => hclosed, ?_, fun _ => Or.inl rfl, ?_⟩
      · simpa [beginTeardown, hstarted] using h.finished
      · simp [beginTeardown]
  | leaves how hrunning hinside =>
      exact ⟨h.calls, h.nodup, h.numbered, h.closed, h.finished, fun _ => Or.inl hrunning, fun _ => rfl⟩
  | ends hrunning hover =>
      have hclosed := h.closed (by simp [hrunning])
      exact ⟨h.calls, h.nodup, h.numbered, fun _ => ⟨hclosed.1, rfl⟩, by simp [endTeardown, wake],
        fun _ => Or.inr rfl, fun _ => hover⟩

/-! ### The log -/

section Frames

variable {log events : List ServiceEvent} {k : ServiceEventKind}

theorem mem_append_of_kind (hevents : ∀ e ∈ events, e.kind ≠ k) {e : ServiceEvent} (he : e.kind = k) :
    e ∈ log ++ events ↔ e ∈ log :=
  ⟨fun hin => (List.mem_append.mp hin).resolve_right fun hnew => hevents e hnew he,
    List.mem_append_left events⟩

theorem interruptsIn_append (hevents : ∀ e ∈ events, e.kind ≠ .interrupt) :
    interruptsIn (log ++ events) = interruptsIn log := by
  have hnone : interruptsIn events = 0 := by
    simpa [interruptsIn, List.countP_eq_zero] using hevents
  rw [interruptsIn] at hnone ⊢
  rw [List.countP_append, hnone]
  rfl

theorem GuardLog.frame (h : w.GuardLog) (hnext : w.next ≤ w'.next) (hguards : w'.guards = w.guards)
    (hlog : w'.log = w.log ++ events) (hevents : ∀ e ∈ events, e.kind ≠ .guard) : w'.GuardLog where
  made := by
    intro g hg
    rw [hlog, mem_append_of_kind hevents rfl] at hg
    exact Nat.lt_of_lt_of_le (h.made g hg) hnext
  dropped := by
    intro g hg
    rw [hlog, mem_append_of_kind hevents rfl] at hg ⊢
    exact h.dropped g hg
  live := by
    intro g
    rw [hlog, hguards, mem_append_of_kind hevents rfl, mem_append_of_kind hevents rfl]
    exact h.live g

theorem HookLog.frame (h : w.HookLog)
    (hbegan : (w'.lifecycle.teardown = .running ∨ w'.lifecycle.teardown = .ended) ↔
      w.lifecycle.teardown = .running ∨ w.lifecycle.teardown = .ended)
    (hend : w'.hookEnd = w.hookEnd) (hlog : w'.log = w.log ++ events)
    (hevents : ∀ e ∈ events, e.kind ≠ .hook) : w'.HookLog where
  began := by
    rw [hlog, mem_append_of_kind hevents rfl, hbegan]
    exact h.began
  ended := by
    intro how
    rw [hlog, mem_append_of_kind hevents rfl, hend]
    exact h.ended how

theorem ShutdownLog.frame (h : w.ShutdownLog) (hnext : w.next ≤ w'.next)
    (hinterrupts : w'.lifecycle.interrupts = w.lifecycle.interrupts)
    (hstate : w.lifecycle.state.rank ≤ w'.lifecycle.state.rank) (hlog : w'.log = w.log ++ events)
    (hevents : ∀ e ∈ events, e.kind ≠ .shutdown ∧ e.kind ≠ .interrupt) : w'.ShutdownLog where
  interrupts := by
    rw [hlog, interruptsIn_append fun e he => (hevents e he).2, hinterrupts]
    exact h.interrupts
  begun := by
    intro n hn
    rw [hlog, mem_append_of_kind (fun e he => (hevents e he).1) rfl] at hn
    exact Nat.lt_of_lt_of_le (h.begun n hn) hnext
  completed := by
    intro n hn
    rw [hlog, mem_append_of_kind (fun e he => (hevents e he).1) rfl] at hn
    exact shutDown_of_rank (h.completed n hn) hstate

end Frames

theorem GuardLog.step (h : w.GuardLog) (hsound : w.Sound) (hstep : w.Step w') : w'.GuardLog := by
  have hnext := hstep.next_le
  cases hstep with
  | still => exact h
  | readies _ _ hevents =>
      exact h.frame hnext rfl rfl fun e he => by simp [hevents e he]
  | startsCall =>
      have hfresh : guardMade w.next ∉ w.log := fun hin => Nat.lt_irrefl _ (h.made _ hin)
      have hnot : guardDropped w.next ∉ w.log := fun hin => hfresh (h.dropped _ hin)
      refine ⟨fun g hg => ?_, fun g hg => ?_, fun g => ?_⟩
      · rcases List.mem_append.mp hg with hin | hin
        · exact Nat.lt_succ_of_lt (h.made g hin)
        · obtain rfl : g = w.next := by simpa using hin
          exact Nat.lt_succ_self _
      · exact List.mem_append_left _ (h.dropped g (by simpa using hg))
      · by_cases hg : g = w.next
        · subst hg
          simp [hnot]
        · simp [hg, h.live g]
  | @drops g hg =>
      obtain ⟨hmade, hnot⟩ := (h.live g).mp hg
      refine ⟨fun g' hg' => h.made g' (by simpa using hg'), fun g' hg' => ?_, fun g' => ?_⟩
      · refine List.mem_append_left _ ?_
        rcases List.mem_append.mp hg' with hin | hin
        · exact h.dropped g' hin
        · obtain rfl : g' = g := by simpa using hin
          exact hmade
      · show g' ∈ w.guards.erase g ↔ _
        rw [hsound.nodup.mem_erase_iff, h.live g']
        by_cases hg' : g' = g
        · subst hg'
          simp
        · simp [hg']
  | closes => exact h.frame hnext rfl rfl (by simp [kind])
  | @looks n _ turn =>
      refine h.frame hnext (arrive_guards _ _ _) (arrive_log _ _ _) fun e he => ?_
      cases turn <;> simp_all [ShutdownTurn.events, kind]
  | interrupts => exact h.frame hnext rfl rfl (by simp [kind])
  | enters => exact h.frame hnext rfl rfl (by simp [kind])
  | leaves => exact h.frame hnext rfl rfl (by simp [kind])
  | ends => exact h.frame hnext rfl (List.append_nil _).symm (by simp)

theorem HookLog.step (h : w.HookLog) (hstep : w.Step w') : w'.HookLog := by
  cases hstep with
  | still => exact h
  | readies hlifecycle _ hevents =>
      refine h.frame ?_ rfl rfl fun e he => by simp [hevents e he]
      rcases hlifecycle with rfl | ⟨-, rfl⟩ <;> exact Iff.rfl
  | startsCall => exact h.frame Iff.rfl rfl rfl (by simp [kind])
  | drops => exact h.frame (by simp) rfl rfl (by simp [kind])
  | closes hlifecycle =>
      refine h.frame ?_ rfl rfl (by simp [kind])
      rcases hlifecycle with ⟨rfl, -⟩ | ⟨rfl, -⟩ <;> exact Iff.rfl
  | @looks n _ turn _ _ _ hlook =>
      refine h.frame ?_ (arrive_hookEnd _ _ _) (arrive_log _ _ _) fun e he => ?_
      · rw [arrive_lifecycle]
        cases hlook.starts with
        | refl => exact Iff.rfl
        | starts _ hnew => simp [hnew]
      · cases turn <;> simp_all [ShutdownTurn.events, kind]
  | interrupts => exact h.frame Iff.rfl rfl rfl (by simp [kind])
  | enters hstarted =>
      refine ⟨by simp [beginTeardown], fun how => ?_⟩
      simpa using h.ended how
  | leaves how hrunning hinside =>
      refine ⟨by simp [hrunning, h.began], fun how' => ?_⟩
      have hnone : hookEnded how' ∉ w.log := fun hin => by simpa [hinside] using (h.ended how').mp hin
      simp [hnone, eq_comm]
  | ends hrunning =>
      exact h.frame (by simp [endTeardown, wake, hrunning]) rfl (List.append_nil _).symm (by simp)

theorem ShutdownLog.step (h : w.ShutdownLog) (hstep : w.Step w') : w'.ShutdownLog := by
  have hnext := hstep.next_le
  have hrank := hstep.onward.state
  cases hstep with
  | still => exact h
  | readies hlifecycle _ hevents =>
      refine h.frame hnext ?_ hrank rfl fun e he => by simp [hevents e he]
      rcases hlifecycle with rfl | ⟨-, rfl⟩ <;> rfl
  | startsCall => exact h.frame hnext rfl hrank rfl (by simp [kind])
  | drops => exact h.frame hnext (by simp) hrank rfl (by simp [kind])
  | closes hlifecycle =>
      have hsame : interruptsIn (w.log ++ [shutdownBegan w.next]) = interruptsIn w.log :=
        interruptsIn_append (by simp [kind])
      refine ⟨?_, fun n hn => ?_, fun n hn => ?_⟩
      · rcases hlifecycle with ⟨rfl, -⟩ | ⟨rfl, -⟩ <;> exact hsame.trans h.interrupts
      · rcases List.mem_append.mp hn with hin | hin
        · exact Nat.lt_succ_of_lt (h.begun n hin)
        · obtain rfl : n = w.next := by simpa using hin
          exact Nat.lt_succ_self _
      · exact shutDown_of_rank (h.completed n (by simpa using hn)) hrank
  | @looks n _ turn lifecycle _ _ hlook =>
      have hstate : lifecycle.state = w.lifecycle.state := by
        cases hlook.starts <;> rfl
      have hinterrupts : lifecycle.interrupts = w.lifecycle.interrupts := by
        cases hlook.starts <;> rfl
      refine ⟨?_, fun n' hn' => ?_, fun n' hn' => ?_⟩
      · rw [arrive_log, arrive_lifecycle, interruptsIn_append, hinterrupts]
        · exact h.interrupts
        · cases turn <;> simp [ShutdownTurn.events, kind]
      · rw [arrive_next]
        refine h.begun n' ?_
        cases turn <;> simpa [arrive_log, ShutdownTurn.events] using hn'
      · rw [arrive_lifecycle, hstate]
        rw [arrive_log] at hn'
        rcases List.mem_append.mp hn' with hin | hin
        · exact h.completed n' hin
        · cases hlook with
          | completed _ hover => exact hover
          | _ => simp [ShutdownTurn.events] at hin
  | interrupts =>
      refine ⟨?_, fun n hn => h.begun n (by simpa using hn),
        fun n hn => h.completed n (by simpa using hn)⟩
      have hcount := h.interrupts
      rw [interruptsIn] at hcount ⊢
      simpa [kind, interrupt, wake] using hcount
  | enters => exact h.frame hnext rfl hrank rfl (by simp [kind])
  | leaves => exact h.frame hnext rfl hrank rfl (by simp [kind])
  | ends => exact h.frame hnext rfl hrank (List.append_nil _).symm (by simp)

/-- A shutdown that has seen fewer interrupts than there are began before one of them. -/
theorem ShutdownLog.interrupted_of_began (h : w.ShutdownLog) {seen : Nat} (hbegan : w.Began n seen)
    (hmore : w.lifecycle.interrupts ≠ seen) :
    ∃ earlier since, w.log = earlier ++ shutdownBegan n :: since ∧ interrupted ∈ since := by
  obtain ⟨before, since, hlog, hseen⟩ := hbegan
  refine ⟨before, since, hlog, ?_⟩
  by_contra hnone
  have hsince : ∀ e ∈ shutdownBegan n :: since, e.kind ≠ .interrupt := by
    intro e he hkind
    rcases List.mem_cons.mp he with rfl | he
    · cases hkind
    · cases e with
      | interrupted => exact hnone he
      | _ => cases hkind
  have hcount := h.interrupts
  rw [hlog, interruptsIn_append hsince, hseen] at hcount
  exact hmore hcount.symm

/-- One that has seen as many as there are has not been interrupted since it began. -/
theorem ShutdownLog.not_interrupted_of_began (h : w.ShutdownLog) (hinOrder : InOrder Fits w.log)
    (hbegan : w.Began n w.lifecycle.interrupts) {earlier since : List ServiceEvent}
    (hlog : w.log = earlier ++ shutdownBegan n :: since) : interrupted ∉ since := by
  obtain ⟨before, rest, hbefore, hseen⟩ := hbegan
  -- A shutdown begins once, so the two splits of the log are the same.
  obtain ⟨rfl, hsince⟩ : earlier = before ∧ since = rest := by
    have hnot := hinOrder.fits hlog
    have hnot' := hinOrder.fits hbefore
    rw [hlog] at hbefore
    rcases List.append_eq_append_iff.mp hbefore with ⟨more, rfl, hmore⟩ | ⟨more, rfl, hmore⟩
    · cases more with
      | nil => simpa [eq_comm] using hmore
      | cons e more =>
          obtain ⟨rfl, -⟩ := List.cons.inj hmore
          exact absurd (by simp) hnot'
    · cases more with
      | nil => simpa [eq_comm] using hmore
      | cons e more =>
          obtain ⟨rfl, -⟩ := List.cons.inj hmore
          exact absurd (by simp) hnot
  intro hin
  have hcount := h.interrupts
  rw [hlog, interruptsIn, List.countP_append, ← interruptsIn, hseen] at hcount
  have hpos : 0 < (shutdownBegan n :: since).countP fun e => decide (e.kind = .interrupt) :=
    List.countP_pos_iff.mpr ⟨interrupted, List.mem_cons_of_mem _ hin, by simp [kind]⟩
  omega

theorem inOrder_step (h : InOrder Fits w.log) (hsound : w.Sound) (hguards : w.GuardLog) (hhook : w.HookLog)
    (hshutdowns : w.ShutdownLog) (hstep : w.Step w') : InOrder Fits w'.log := by
  cases hstep with
  | still => exact h
  | readies _ _ hevents => exact h.append fun e he => fits_of_ready (hevents e he)
  | startsCall hopen =>
      refine h.concat ⟨fun hin => Nat.lt_irrefl _ (hguards.made _ hin), fun hin => ?_⟩
      simpa [hsound.state_of_open hopen] using hhook.began.mp hin
  | drops hg => exact h.concat ((hguards.live _).mp hg)
  | closes => exact h.concat fun hin => Nat.lt_irrefl _ (hshutdowns.begun _ hin)
  | @looks n _ turn lifecycle hbegan _ hlook =>
      rw [arrive_log]
      cases hlook with
      | drains => simpa [ShutdownTurn.events] using h
      | awaits => simpa [ShutdownTurn.events] using h
      | interrupted _ hmore => exact h.concat (hshutdowns.interrupted_of_began hbegan hmore)
      | completed _ hover =>
          obtain ⟨how, hhow⟩ := Option.isSome_iff_exists.mp (hsound.ended (hsound.finished.mp hover))
          exact h.concat ⟨how, (hhook.ended how).mpr hhow⟩
  | interrupts => exact h.concat trivial
  | enters hstarted =>
      refine h.concat ⟨fun hin => ?_, fun g hg => ?_⟩
      · simpa [hstarted] using hhook.began.mp hin
      · -- Nobody has a guard any more, so each has been dropped.
        by_contra hnot
        have hlive := (hguards.live g).mpr ⟨hg, hnot⟩
        rw [(hsound.closed (by simp [hstarted])).1] at hlive
        exact absurd hlive List.not_mem_nil
  | leaves how hrunning hinside =>
      refine h.concat ⟨hhook.began.mpr (Or.inl hrunning), fun how' hin => ?_⟩
      simpa [hinside] using (hhook.ended how').mp hin
  | ends => exact h

/-! ### Those who wait -/

theorem Waits.onward (h : w.Waits n wait) (honward : Onward w.lifecycle w'.lifecycle)
    {events : List ServiceEvent} (hlog : w'.log = w.log ++ events) : w'.Waits n wait where
  began := by
    obtain ⟨before, since, hbefore, hseen⟩ := h.began
    exact ⟨before, since ++ events, by rw [hlog, hbefore]; simp, hseen⟩
  closing :=
    ServiceState.isClosing_iff.mpr (Nat.le_trans (ServiceState.isClosing_iff.mp h.closing) honward.state)
  started := fun hphase => honward.started (h.started hphase)
  seen := Nat.le_trans h.seen honward.wakeups
  asleep := by
    intro hasleep
    have hseen := h.seen
    have hmore := honward.wakeups
    obtain ⟨hstate, hsame, hbusy⟩ := h.asleep (by omega)
    obtain ⟨hstate', hsame', hbusy'⟩ := honward.asleep hstate (by omega)
    exact ⟨hstate', hsame'.trans hsame, fun hphase => hbusy' (hbusy hphase)⟩

/-- A shutdown that has looked and found that it must wait has missed nothing. -/
theorem waits_of_look {seen : Nat} {lifecycle : Lifecycle} (hsound : w.Sound) (hbegan : w.Began n seen)
    (hclosing : w.lifecycle.state.isClosing = true)
    (hlook : Look w.lifecycle seen (.waiting wait) lifecycle) :
    Waits ({ w with lifecycle }.arrive n (.waiting wait)) n wait := by
  cases hlook with
  | drains hcalls hsame =>
      have hnew := hsound.teardown_of_calls hcalls
      have hstate : w.lifecycle.state ≠ .shutDown := fun hover => by
        simpa [hnew] using hsound.finished.mp hover
      exact ⟨hbegan, hclosing, fun hphase => absurd hphase (by simp), Nat.le_refl _,
        fun _ => ⟨state_of_closing hclosing hstate, hsame, fun _ => hcalls⟩⟩
  | awaits hstarts hstarted hstate hsame =>
      have hclosed := state_of_closing hclosing hstate
      cases hstarts <;>
        exact ⟨hbegan, hclosing, fun _ => hstarted, Nat.le_refl _,
          fun _ => ⟨hclosed, hsame, fun hphase => absurd hphase (by simp)⟩⟩

theorem waits_step (h : ∀ n wait, w.shutdowns.get? n = some wait → w.Waits n wait) (hsound : w.Sound)
    (hstep : w.Step w') : ∀ n wait, w'.shutdowns.get? n = some wait → w'.Waits n wait := by
  intro n wait hwait
  obtain ⟨events, hlog⟩ := hstep.log_append
  have hstill : w.shutdowns.get? n = some wait → w'.Waits n wait :=
    fun hbefore => (h n wait hbefore).onward hstep.onward hlog
  rcases hstep.shutdowns_eq with hsame | ⟨n', seen, turn, lifecycle, hbegan, hclosing, hlook, rfl⟩
  · rw [hsame] at hwait
    exact hstill hwait
  · cases turn with
    | ended outcome =>
        refine hstill ?_
        have hwait' : (w.shutdowns.erase n').get? n = some wait := hwait
        rw [FinMap.get?_erase] at hwait'
        split at hwait'
        · cases hwait'
        · exact hwait'
    | waiting wait' =>
        have hwait' : (w.shutdowns.insert n' wait').get? n = some wait := hwait
        rw [FinMap.get?_insert] at hwait'
        split at hwait'
        · rename_i hn
          subst hn
          obtain rfl := Option.some.inj hwait'
          exact waits_of_look hsound hbegan hclosing hlook
        · exact hstill hwait'

/-- A shutdown has ended, or waits. -/
def AccountsFor (w : ServiceTraffic) (n : Nat) : Prop :=
  (∃ outcome, shutdownEnded n outcome ∈ w.log) ∨ (w.shutdowns.get? n).isSome = true

/-- No shutdown that has looked is lost. -/
theorem accountsFor_arrive (n : Nat) (turn : ShutdownTurn) (w : ServiceTraffic) :
    (w.arrive n turn).AccountsFor n := by
  cases turn with
  | ended outcome => exact Or.inl ⟨outcome, List.mem_append_right _ List.mem_cons_self⟩
  | waiting wait => exact Or.inr (by simp [arrive])

theorem AccountsFor.step (h : w.AccountsFor n) (hstep : w.Step w') : w'.AccountsFor n := by
  obtain ⟨events, hlog⟩ := hstep.log_append
  rcases h with ⟨outcome, hin⟩ | hwaits
  · exact Or.inl ⟨outcome, by rw [hlog]; exact List.mem_append_left events hin⟩
  · rcases hstep.shutdowns_eq with hsame | ⟨n', seen, turn, lifecycle, -, -, -, rfl⟩
    · exact Or.inr (by rw [hsame]; exact hwaits)
    · by_cases hn : n' = n
      · subst hn
        exact accountsFor_arrive n' turn _
      · refine Or.inr ?_
        cases turn with
        | ended outcome =>
            show ((w.shutdowns.erase n').get? n).isSome = true
            rwa [FinMap.get?_erase, if_neg hn]
        | waiting wait =>
            show ((w.shutdowns.insert n' wait).get? n).isSome = true
            rwa [FinMap.get?_insert, if_neg hn]

/-- Only who begins a shutdown is seen to begin one. -/
theorem shutdownBegan_of_perform {a : ServiceAction} (h : shutdownBegan n ∈ (w.perform a).log) :
    shutdownBegan n ∈ w.log ∨ a = .shutDown ∧ n = w.next := by
  have hold : ∀ {events : List ServiceEvent}, (∀ m, shutdownBegan m ∉ events) →
      shutdownBegan n ∈ w.log ++ events → shutdownBegan n ∈ w.log :=
    fun hnone hin => (List.mem_append.mp hin).resolve_right (hnone n)
  cases a with
  | ready =>
      simp only [perform] at h
      split at h
      · exact Or.inl h
      · exact Or.inl (hold (by simp) h)
      · exact Or.inl (hold (by simp) h)
  | proceedReady m how =>
      simp only [perform] at h
      split at h
      · exact Or.inl h
      · exact Or.inl (hold (by simp) h)
      · refine Or.inl (hold (fun k hk => ?_) h)
        obtain ⟨result, heq⟩ := HookEnd.mem_readyEvents (by simpa using hk)
        exact absurd heq (by simp)
  | startCall =>
      simp only [perform] at h
      split at h
      · exact Or.inl (hold (by simp) h)
      · exact Or.inl h
  | drop g =>
      simp only [perform] at h
      split at h
      · exact Or.inl (hold (by simp) h)
      · exact Or.inl h
  | shutDown =>
      simp only [perform, arrive_log] at h
      rcases List.mem_append.mp h with hin | hin
      · rcases List.mem_append.mp hin with hin | hin
        · exact Or.inl hin
        · exact Or.inr ⟨rfl, by simpa using hin⟩
      · cases hturn : w.lifecycle.beginShutdown.1 <;> simp [hturn, ShutdownTurn.events] at hin
  | resume m =>
      simp only [perform] at h
      split at h
      · exact Or.inl h
      · rename_i wait _
        rw [arrive_log] at h
        refine Or.inl (hold (fun m => ?_) h)
        cases (w.lifecycle.resumeShutdown wait).1 <;> simp [ShutdownTurn.events]
  | interrupt => exact Or.inl (hold (by simp) h)
  | work how =>
      simp only [perform, work] at h
      split at h
      · exact Or.inl (hold (by simp) h)
      · exact Or.inl (hold (by simp) h)
      · exact Or.inl h
      · exact Or.inl h
      · exact Or.inl h

theorem calls_perform_drop {g : Nat} (hg : g ∈ w.guards) :
    (w.perform (.drop g)).lifecycle.calls = w.lifecycle.calls - 1 := by
  have hcontains : w.guards.contains g = true := List.contains_iff_mem.mpr hg
  rw [perform, if_pos hcontains]
  exact finishCall_calls w.lifecycle

/-! ### Runs -/

/-- All that holds of a service under many threads. -/
structure Orderly (w : ServiceTraffic) : Prop where
  sound : w.Sound
  guards : w.GuardLog
  hook : w.HookLog
  shutdowns : w.ShutdownLog
  inOrder : InOrder Fits w.log
  waits : ∀ n wait, w.shutdowns.get? n = some wait → w.Waits n wait

namespace Orderly

theorem new (name : String) : (new name).Orderly where
  sound := ⟨rfl, List.nodup_nil, by simp [ServiceTraffic.new],
    fun h => absurd rfl h, by simp [ServiceTraffic.new, Lifecycle.new],
    by simp [ServiceTraffic.new], by simp [ServiceTraffic.new, Lifecycle.new]⟩
  guards := ⟨by simp [ServiceTraffic.new], by simp [ServiceTraffic.new], by simp [ServiceTraffic.new]⟩
  hook := ⟨by simp [ServiceTraffic.new, Lifecycle.new], by simp [ServiceTraffic.new]⟩
  shutdowns := ⟨rfl, by simp [ServiceTraffic.new], by simp [ServiceTraffic.new]⟩
  inOrder := .nil
  waits := fun n wait h => absurd h (by simp [ServiceTraffic.new])

theorem step (h : w.Orderly) (hstep : w.Step w') : w'.Orderly where
  sound := h.sound.step hstep
  guards := h.guards.step h.sound hstep
  hook := h.hook.step hstep
  shutdowns := h.shutdowns.step hstep
  inOrder := inOrder_step h.inOrder h.sound h.guards h.hook h.shutdowns hstep
  waits := waits_step h.waits h.sound hstep

theorem steps (h : w.Orderly) (a : ServiceAction) :
    ∃ between, w.Step between ∧ between.Step (w.perform a) :=
  steps_perform w a h.shutdowns.interrupts fun n wait hwait =>
    let hwaits := h.waits n wait hwait
    ⟨hwaits.began, hwaits.closing, hwaits.started⟩

theorem perform (h : w.Orderly) (a : ServiceAction) : (w.perform a).Orderly := by
  obtain ⟨between, hfirst, hsecond⟩ := h.steps a
  exact (h.step hfirst).step hsecond

theorem run (h : w.Orderly) (actions : List ServiceAction) : (w.run actions).Orderly := by
  induction actions generalizing w with
  | nil => exact h
  | cons a rest ih => exact ih (h.perform a)

theorem onward (h : w.Orderly) (actions : List ServiceAction) :
    Onward w.lifecycle (w.run actions).lifecycle := by
  induction actions generalizing w with
  | nil => exact .refl _
  | cons a rest ih =>
      obtain ⟨between, hfirst, hsecond⟩ := h.steps a
      exact (hfirst.onward.trans hsecond.onward).trans (ih (h.perform a))

/-- No shutdown is lost. -/
theorem accountsFor (name : String) (actions : List ServiceAction)
    (hn : shutdownBegan n ∈ ((ServiceTraffic.new name).run actions).log) :
    ((ServiceTraffic.new name).run actions).AccountsFor n := by
  induction actions using List.reverseRecOn with
  | nil => exact absurd hn List.not_mem_nil
  | append_singleton actions a ih =>
      rw [run_concat] at hn ⊢
      rcases shutdownBegan_of_perform hn with hbefore | ⟨rfl, rfl⟩
      · obtain ⟨between, hfirst, hsecond⟩ := ((Orderly.new name).run actions).steps a
        exact ((ih hbefore).step hfirst).step hsecond
      · exact accountsFor_arrive _ _ _

/-- In a quiet service a shutdown waits for calls or for the hook, and has not been interrupted. -/
theorem of_quiet (h : w.Orderly) (hquiet : w.Quiet) (hwait : w.shutdowns.get? n = some wait) :
    (w.guards ≠ [] ∨ hookBegan ∈ w.log ∧ ∀ how, hookEnded how ∉ w.log) ∧
      ∀ earlier since, w.log = earlier ++ shutdownBegan n :: since → interrupted ∉ since := by
  have hwaits := h.waits n wait hwait
  have hasleep : wait.wakeupsSeen = w.lifecycle.wakeups := by
    have hnot := of_decide_eq_false (hquiet.shutdowns n wait hwait)
    exact (Decidable.not_not.mp hnot).symm
  obtain ⟨hstate, hsame, hbusy⟩ := hwaits.asleep hasleep
  refine ⟨?_, fun earlier since hlog => ?_⟩
  · by_contra hnothing
    obtain ⟨hnone, hidle⟩ := not_or.mp hnothing
    have hphase : wait.phase = .tearingDown := by
      cases hphase : wait.phase with
      | tearingDown => rfl
      | draining =>
          have hcalls := hbusy hphase
          rw [h.sound.calls, not_not.mp hnone] at hcalls
          exact absurd hcalls (by simp)
    have hstarted := hwaits.started hphase
    have hworker := hquiet.worker
    -- The teardown has been started and has not ended, and the worker has nothing left to do.
    cases hteardown : w.lifecycle.teardown with
    | notStarted => exact hstarted hteardown
    | started => simp [workerIsDue, hteardown] at hworker
    | ended =>
        have hover := h.sound.finished.mpr hteardown
        rw [hstate] at hover
        cases hover
    | running =>
        have hinside : w.hookEnd = none := by simpa [workerIsDue, hteardown] using hworker
        refine hidle ⟨h.hook.began.mpr (Or.inl hteardown), fun how hin => ?_⟩
        simpa [hinside] using (h.hook.ended how).mp hin
  · exact h.shutdowns.not_interrupted_of_began h.inOrder (hsame ▸ hwaits.began) hlog

end Orderly

/--
**A service is shut down in order.**  Its state never goes back.  There are as many calls in progress
as guards that have been made and not dropped, so that to drop one is to have one call less.  Each event
of the log fits those before it: the hook begins once, when no guard is left, and none is made after it;
a shutdown that comes to its end has had the hook end before, and one that is interrupted began before
an interrupt.  Who has been told that the service is shut down finds it so.  And when the service is
quiet, every shutdown that has begun has ended, or there are calls or the hook to wait for and it has not
been interrupted since it began.
-/
theorem closes_in_order (name : String) (actions later : List ServiceAction) :
    let w := (new name).run actions
    w.lifecycle.state.rank ≤ (w.run later).lifecycle.state.rank ∧
      w.lifecycle.calls = w.guards.length ∧
      w.guards.Nodup ∧ (∀ g, g ∈ w.guards ↔ guardMade g ∈ w.log ∧ guardDropped g ∉ w.log) ∧
      (∀ g ∈ w.guards, (w.perform (.drop g)).lifecycle.calls + 1 = w.lifecycle.calls) ∧
      (∀ before e after, w.log = before ++ e :: after → e.Fits before) ∧
      (∀ n, shutdownEnded n .completed ∈ w.log → w.lifecycle.state = .shutDown) ∧
      (w.Quiet → ∀ n, shutdownBegan n ∈ w.log → (∀ outcome, shutdownEnded n outcome ∉ w.log) →
        (w.guards ≠ [] ∨ hookBegan ∈ w.log ∧ ∀ how, hookEnded how ∉ w.log) ∧
          ∀ earlier since, w.log = earlier ++ shutdownBegan n :: since → interrupted ∉ since) := by
  intro w
  have horderly : Orderly w := (Orderly.new name).run actions
  refine ⟨(horderly.onward later).state, horderly.sound.calls, horderly.sound.nodup,
    horderly.guards.live, fun g hg => ?_, fun before e after => horderly.inOrder.fits,
    horderly.shutdowns.completed, fun hquiet n hbegan hnot => ?_⟩
  · have hcalls := horderly.sound.calls
    have hpos := List.length_pos_of_mem hg
    rw [calls_perform_drop hg]
    omega
  · have hwaits := (Orderly.accountsFor name actions hbegan).resolve_left fun ⟨outcome, hin⟩ =>
      hnot outcome hin
    obtain ⟨wait, hwait⟩ := Option.isSome_iff_exists.mp hwaits
    exact horderly.of_quiet hquiet hwait

end ServiceTraffic

end ObjectStore
