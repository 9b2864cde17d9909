/-
How a service is made ready.

The first call that makes a service ready changes its state and then, outside the section, runs the
ready hook; nobody else ever runs it.  `ReadyCourse` tells how far that call has come, and
`ServiceTraffic.Readied` ties it to the state, the calls under way and the log.

Since the state comes first, a later call finds the service ready whether the hook has succeeded,
has failed or is still running: `ready_succeeds` lists what the success of a call can rest on.  And
since the call is not counted among the calls in progress, a shutdown does not wait for it:
`ready_hook_order` says when the shutdown hook may overtake the ready hook.
-/
import ObjectStore.Proofs.Service.Closing

namespace ObjectStore

/-- How far the call has come that makes the service ready. -/
inductive ReadyCourse where
  | unready
  /-- The service is ready, and the hook is about to begin. -/
  | entered (n : Nat)
  | inHook (n : Nat)
  | ended (n : Nat) (how : HookEnd)

namespace ReadyCourse

/-- The number of the call. -/
def caller? : ReadyCourse → Option Nat
  | unready => none
  | entered n | inHook n | ended n _ => some n

/-- Where a call stands that is under way. -/
def stage? (m : Nat) : ReadyCourse → Option ReadyStage
  | entered n => if n = m then some .entered else none
  | inHook n => if n = m then some .inHook else none
  | unready | ended _ _ => none

/-- The course of a call that has come to a stage. -/
def ofStage (n : Nat) : ReadyStage → ReadyCourse
  | .entered => entered n
  | .inHook => inHook n

/-- A call that is under way is the one that makes the service ready. -/
theorem eq_ofStage {c : ReadyCourse} {n : Nat} {stage : ReadyStage}
    (h : c.stage? n = some stage) : c = ofStage n stage := by
  cases c with
  | entered m =>
      simp only [stage?] at h
      split at h <;> cases h
      rename_i hm
      exact congrArg entered hm
  | inHook m =>
      simp only [stage?] at h
      split at h <;> cases h
      rename_i hm
      exact congrArg inHook hm
  | unready => cases h
  | ended => cases h

/-- What has been seen of the hook. -/
def events : ReadyCourse → List ServiceEvent
  | unready | entered _ => []
  | inHook n => [.readyHookBegan n]
  | ended n how => [.readyHookBegan n, .readyHookEnded n how]

end ReadyCourse

/-- Whether an event is the beginning or the end of the ready hook. -/
def ServiceEvent.isReadyHook : ServiceEvent → Bool
  | readyHookBegan _ | readyHookEnded _ _ => true
  | _ => false

/-- All that is seen of a look is that a shutdown ends. -/
theorem ShutdownTurn.mem_events {n : Nat} {turn : ShutdownTurn} {e : ServiceEvent}
    (h : e ∈ turn.events n) : ∃ outcome, e = .shutdownEnded n outcome := by
  cases turn with
  | waiting wait => exact absurd h List.not_mem_nil
  | ended outcome => exact ⟨outcome, List.mem_singleton.mp h⟩

namespace Lifecycle

variable {l l' : Lifecycle}

theorem Starts.state (h : Starts l l') : l'.state = l.state := by
  cases h <;> rfl

theorem isClosing_beginShutdown (l : Lifecycle) : l.beginShutdown.2.state.isClosing = true := by
  obtain ⟨l₁, hl, hlook⟩ := look_beginShutdown l
  rw [hlook.starts.state]
  rcases hl with ⟨rfl, hclosing⟩ | ⟨rfl, -⟩
  · exact hclosing
  · rfl

theorem state_resumeShutdown (wait : ShutdownWait) (l : Lifecycle) :
    (l.resumeShutdown wait).2.state = l.state := by
  unfold resumeShutdown
  split
  · exact (look_drain l _).starts.state
  · rfl

end Lifecycle

namespace ServiceTraffic

open Lifecycle ServiceEvent

variable {w w' : ServiceTraffic} {c : ReadyCourse} {n : Nat}

/-! ### What an action means for a service that is made ready -/

/-- One move of a service, as the ready hook sees it. -/
inductive ReadyMove (w : ServiceTraffic) : ServiceTraffic → Prop where
  /-- A call finds the service new and makes it ready. -/
  | enters (hstate : w.lifecycle.state = .initialized) :
    ReadyMove w
      { w with
        lifecycle := { w.lifecycle with state := .ready }
        next := w.next + 1
        readies := w.readies.insert w.next .entered }
  /-- A call finds it ready. -/
  | passes (hstate : w.lifecycle.state = .ready) :
    ReadyMove w { w with next := w.next + 1, log := w.log ++ [.readyEnded w.next (.ok ())] }
  /-- A call finds it closing. -/
  | refused (e : ServiceError) :
    ReadyMove w { w with next := w.next + 1, log := w.log ++ [.readyEnded w.next (.error e)] }
  | begins {n : Nat} (hstage : w.readies.get? n = some .entered) :
    ReadyMove w { w with readies := w.readies.insert n .inHook, log := w.log ++ [.readyHookBegan n] }
  | ends {n : Nat} (how : HookEnd) (hstage : w.readies.get? n = some .inHook) :
    ReadyMove w
      { w with
        readies := w.readies.erase n
        log := w.log ++ .readyHookEnded n how :: how.readyEvents n }
  /-- Something else happens. -/
  | aside {w' : ServiceTraffic} {events : List ServiceEvent} (hreadies : w'.readies = w.readies)
    (hnext : w.next ≤ w'.next) (hlog : w'.log = w.log ++ events)
    (hevents : ∀ e ∈ events, e.kind ≠ .ready)
    (hstate : w'.lifecycle.state = w.lifecycle.state ∨ w'.lifecycle.state.isClosing = true)
    (hbegan : ∀ k, shutdownBegan k ∈ events → k = w.next ∧ w'.lifecycle.state.isClosing = true) :
    ReadyMove w w'

theorem readies_arrive (n : Nat) (turn : ShutdownTurn) (w : ServiceTraffic) :
    (w.arrive n turn).readies = w.readies := by
  cases turn <;> rfl

theorem readyMove_perform (w : ServiceTraffic) (a : ServiceAction) : w.ReadyMove (w.perform a) := by
  have hstill : w.ReadyMove w :=
    .aside rfl (Nat.le_refl _) (List.append_nil _).symm (by simp) (Or.inl rfl) (by simp)
  cases a with
  | ready =>
      cases hstate : w.lifecycle.state with
      | initialized =>
          simp only [perform, beginReady, hstate]
          exact .enters hstate
      | ready =>
          simp only [perform, beginReady, hstate]
          exact .passes hstate
      | shuttingDown =>
          simp only [perform, beginReady, hstate]
          exact .refused _
      | shutDown =>
          simp only [perform, beginReady, hstate]
          exact .refused _
  | proceedReady n how =>
      simp only [perform]
      split
      · exact hstill
      · rename_i hstage
        exact .begins hstage
      · rename_i hstage
        exact .ends how hstage
  | startCall =>
      simp only [perform, startCall]
      by_cases hclosing : w.lifecycle.isShuttingDown = true
      · rw [if_pos hclosing]
        exact hstill
      · rw [if_neg hclosing]
        exact .aside rfl (Nat.le_succ _) rfl (by simp [kind]) (Or.inl rfl) (by simp)
  | drop g =>
      simp only [perform]
      split
      · exact .aside rfl (Nat.le_refl _) rfl (by simp [kind])
          (Or.inl (finishCall_state w.lifecycle)) (by simp)
      · exact hstill
  | shutDown =>
      have hclosing := isClosing_beginShutdown w.lifecycle
      have hperform : w.perform .shutDown = arrive w.next w.lifecycle.beginShutdown.1
          { w with
            lifecycle := w.lifecycle.beginShutdown.2
            next := w.next + 1
            log := w.log ++ [.shutdownBegan w.next] } := rfl
      rw [hperform]
      generalize w.lifecycle.beginShutdown.1 = turn
      refine .aside (readies_arrive _ _ _) ?_ ((arrive_log _ _ _).trans (List.append_assoc _ _ _))
        ?_ (Or.inr ?_) ?_
      · rw [arrive_next]
        exact Nat.le_succ _
      · intro e he
        rcases List.mem_append.mp he with hfirst | hlast
        · rw [List.mem_singleton.mp hfirst]
          simp [kind]
        · obtain ⟨outcome, rfl⟩ := ShutdownTurn.mem_events hlast
          simp [kind]
      · rw [arrive_lifecycle]
        exact hclosing
      · intro k hk
        rw [arrive_lifecycle]
        rcases List.mem_append.mp hk with hfirst | hlast
        · exact ⟨by simpa using hfirst, hclosing⟩
        · obtain ⟨outcome, heq⟩ := ShutdownTurn.mem_events hlast
          exact absurd heq (by simp)
  | resume n =>
      simp only [perform]
      split
      · exact hstill
      · rename_i wait _
        refine .aside (readies_arrive _ _ _) ?_ (arrive_log _ _ _) ?_ (Or.inl ?_) ?_
        · simp
        · intro e he
          obtain ⟨outcome, rfl⟩ := ShutdownTurn.mem_events he
          simp [kind]
        · rw [arrive_lifecycle]
          exact state_resumeShutdown wait w.lifecycle
        · intro k hk
          obtain ⟨outcome, heq⟩ := ShutdownTurn.mem_events hk
          exact absurd heq (by simp)
  | interrupt => exact .aside rfl (Nat.le_refl _) rfl (by simp [kind]) (Or.inl rfl) (by simp)
  | work how =>
      simp only [perform, work]
      split
      · exact .aside rfl (Nat.le_refl _) rfl (by simp [kind]) (Or.inl rfl) (by simp)
      · exact .aside rfl (Nat.le_refl _) rfl (by simp [kind]) (Or.inl rfl) (by simp)
      · exact .aside rfl (Nat.le_refl _) (List.append_nil _).symm (by simp) (Or.inr rfl) (by simp)
      · exact hstill
      · exact hstill

/-! ### The course of the ready hook -/

/-- The service shows that the call that makes it ready has come so far. -/
structure Readied (w : ServiceTraffic) (c : ReadyCourse) : Prop where
  readies : ∀ m, w.readies.get? m = c.stage? m
  hook : w.log.filter isReadyHook = c.events
  /-- A new service has not been made ready, and one that is ready has. -/
  fresh : w.lifecycle.state = .initialized → c = .unready
  ready : w.lifecycle.state = .ready → c ≠ .unready
  numbered : ∀ m, c.caller? = some m → m < w.next
  /-- Nobody makes a service ready after a shutdown has begun. -/
  first : ∀ m, c.caller? = some m → ∀ k, shutdownBegan k ∈ w.log → m < k
  unclosed : w.lifecycle.state.isClosing = false → ∀ k, shutdownBegan k ∉ w.log

theorem readied_new (name : String) : (new name).Readied .unready where
  readies := fun _ => rfl
  hook := rfl
  fresh := fun _ => rfl
  ready := fun h => absurd h (by simp [new, Lifecycle.new])
  numbered := fun _ h => absurd h (by simp [ReadyCourse.caller?])
  first := fun _ h => absurd h (by simp [ReadyCourse.caller?])
  unclosed := fun _ k => by simp [new]

/-- What is logged besides the hook tells nothing about it. -/
theorem hook_append {events : List ServiceEvent} (h : w.log.filter isReadyHook = c.events)
    (hnone : ∀ e ∈ events, e.isReadyHook = false) :
    (w.log ++ events).filter isReadyHook = c.events := by
  have hnil : events.filter isReadyHook = [] :=
    List.filter_eq_nil_iff.mpr fun e he => by simp [hnone e he]
  rw [List.filter_append, hnil, List.append_nil]
  exact h

theorem Readied.answer (h : w.Readied c) (result : Except ServiceError Unit) :
    Readied { w with next := w.next + 1, log := w.log ++ [readyEnded w.next result] } c where
  readies := h.readies
  hook := hook_append h.hook (by simp [isReadyHook])
  fresh := h.fresh
  ready := h.ready
  numbered := fun m hm => Nat.lt_succ_of_lt (h.numbered m hm)
  first := fun m hm k hk => h.first m hm k (by simpa using hk)
  unclosed := fun hopen k hk => h.unclosed hopen k (by simpa using hk)

/-- How far the call may have come after one move. -/
inductive Advances (w : ServiceTraffic) : ReadyCourse → ReadyCourse → Prop where
  | stays {c : ReadyCourse} : Advances w c c
  | enters (hstate : w.lifecycle.state = .initialized) : Advances w .unready (.entered w.next)
  | begins {n : Nat} : Advances w (.entered n) (.inHook n)
  | ends {n : Nat} (how : HookEnd) : Advances w (.inHook n) (.ended n how)

/-- **Only the first call runs the hook, and it runs it once.** -/
theorem Readied.move (h : w.Readied c) (hmove : w.ReadyMove w') :
    ∃ c', w.Advances c c' ∧ w'.Readied c' := by
  cases hmove with
  | enters hstate =>
      obtain rfl := h.fresh hstate
      have hopen : w.lifecycle.state.isClosing = false := by rw [hstate]; rfl
      refine ⟨.entered w.next, .enters hstate, ?_, h.hook, fun hnew => by simp at hnew,
        fun _ => by simp, ?_, ?_, fun _ => h.unclosed hopen⟩
      · intro m
        rw [FinMap.get?_insert, h.readies m]
        rfl
      · intro m hm
        obtain rfl : w.next = m := Option.some.inj hm
        exact Nat.lt_succ_self _
      · exact fun m _ k hk => absurd hk (h.unclosed hopen k)
  | passes hstate => exact ⟨c, .stays, h.answer _⟩
  | refused e => exact ⟨c, .stays, h.answer _⟩
  | @begins n hstage =>
      obtain rfl : c = .entered n := ReadyCourse.eq_ofStage ((h.readies n).symm.trans hstage)
      refine ⟨.inHook n, .begins, ?_, ?_, fun hnew => absurd (h.fresh hnew) (by simp),
        fun _ => by simp, h.numbered, fun m hm k hk => h.first m hm k (by simpa using hk),
        fun hopen k hk => h.unclosed hopen k (by simpa using hk)⟩
      · intro m
        rw [FinMap.get?_insert, h.readies m]
        simp only [ReadyCourse.stage?]
        split <;> rfl
      · rw [List.filter_append, h.hook]
        rfl
  | @ends n how hstage =>
      obtain rfl : c = .inHook n := ReadyCourse.eq_ofStage ((h.readies n).symm.trans hstage)
      have hold : ∀ k, shutdownBegan k ∈ w.log ++ readyHookEnded n how :: how.readyEvents n →
          shutdownBegan k ∈ w.log := by
        intro k hk
        rcases List.mem_append.mp hk with hold | hnew
        · exact hold
        · obtain ⟨result, heq⟩ := HookEnd.mem_readyEvents (by simpa using hnew)
          exact absurd heq (by simp)
      refine ⟨.ended n how, .ends how, ?_, ?_, fun hnew => absurd (h.fresh hnew) (by simp),
        fun _ => by simp, h.numbered, fun m hm k hk => h.first m hm k (hold k hk),
        fun hopen k hk => h.unclosed hopen k (hold k hk)⟩
      · intro m
        rw [FinMap.get?_erase, h.readies m]
        simp only [ReadyCourse.stage?]
        split <;> rfl
      · rw [List.filter_append, h.hook]
        cases how <;> rfl
  | @aside _ events hreadies hnext hlog hevents hstate hbegan =>
      have hother : ∀ e ∈ events, e.isReadyHook = false := by
        intro e he
        have hkind := hevents e he
        cases e <;> first | rfl | exact absurd rfl hkind
      have hsame : w'.lifecycle.state.isClosing = false → w'.lifecycle.state = w.lifecycle.state :=
        fun hopen => hstate.resolve_right (by simp [hopen])
      refine ⟨c, .stays, ?_, hlog ▸ hook_append h.hook hother, ?_, ?_, ?_, ?_, ?_⟩
      · rw [hreadies]
        exact h.readies
      · exact fun hnew => h.fresh ((hsame (by rw [hnew]; rfl)).symm.trans hnew)
      · exact fun hready => h.ready ((hsame (by rw [hready]; rfl)).symm.trans hready)
      · exact fun m hm => Nat.lt_of_lt_of_le (h.numbered m hm) hnext
      · intro m hm k hk
        rcases List.mem_append.mp (hlog ▸ hk) with hold | hnew
        · exact h.first m hm k hold
        · rw [(hbegan k hnew).1]
          exact h.numbered m hm
      · intro hopen k hk
        rcases List.mem_append.mp (hlog ▸ hk) with hold | hnew
        · rw [hsame hopen] at hopen
          exact h.unclosed hopen k hold
        · rw [(hbegan k hnew).2] at hopen
          cases hopen

theorem Readied.perform (h : w.Readied c) (a : ServiceAction) :
    ∃ c', w.Advances c c' ∧ (w.perform a).Readied c' :=
  h.move (readyMove_perform w a)

theorem Readied.run (h : w.Readied c) (actions : List ServiceAction) :
    ∃ c', (w.run actions).Readied c' := by
  induction actions generalizing w c with
  | nil => exact ⟨c, h⟩
  | cons a rest ih =>
      obtain ⟨c', -, h'⟩ := h.perform a
      exact ih h'

/-! ### What the log tells of the hook -/

theorem Readied.mem_log (h : w.Readied c) {e : ServiceEvent} (he : e.isReadyHook = true) :
    e ∈ w.log ↔ e ∈ c.events := by
  rw [← h.hook, List.mem_filter]
  exact (and_iff_left he).symm

theorem Readied.caller_of_began (h : w.Readied c) (hn : readyHookBegan n ∈ w.log) :
    c.caller? = some n := by
  have hin := (h.mem_log rfl).mp hn
  cases c with
  | unready => exact absurd hin List.not_mem_nil
  | entered m => exact absurd hin List.not_mem_nil
  | inHook m => simpa [ReadyCourse.events, ReadyCourse.caller?, eq_comm] using hin
  | ended m how => simpa [ReadyCourse.events, ReadyCourse.caller?, eq_comm] using hin

/-- A call that is under way has not ended the hook, and has begun it if it is inside. -/
theorem Readied.of_busy (h : w.Readied c) {stage : ReadyStage}
    (hstage : w.readies.get? n = some stage) :
    (∀ how, readyHookEnded n how ∉ w.log) ∧
      (stage = .inHook → readyHookBegan n ∈ w.log) := by
  obtain rfl : c = .ofStage n stage := ReadyCourse.eq_ofStage ((h.readies n).symm.trans hstage)
  refine ⟨fun how hended => ?_, fun hinside => (h.mem_log rfl).mpr ?_⟩
  · have hin := (h.mem_log rfl).mp hended
    cases stage <;> simp [ReadyCourse.ofStage, ReadyCourse.events] at hin
  · rw [hinside]
    exact List.mem_cons_self

theorem Readied.ended_of_idle (h : w.Readied c) (hidle : ∀ m, c.stage? m = none)
    (hn : readyHookBegan n ∈ c.events) : ∃ how, readyHookEnded n how ∈ w.log := by
  cases c with
  | unready => exact absurd hn List.not_mem_nil
  | entered m => exact absurd hn List.not_mem_nil
  | inHook m => exact absurd (hidle m) (by simp [ReadyCourse.stage?])
  | ended m how =>
      obtain rfl : n = m := by simpa [ReadyCourse.events] using hn
      exact ⟨how, (h.mem_log rfl).mpr (by simp [ReadyCourse.events])⟩

/-- Of a service that has been made ready the call that has done it is known, with what has become
of its hook. -/
theorem Readied.of_ready (h : w.Readied c) (hready : w.lifecycle.state = .ready) :
    ∃ m, m < w.next ∧ ((∃ how, readyHookEnded m how ∈ w.log) ∨ w.readies.get? m ≠ none) := by
  cases c with
  | unready => exact absurd rfl (h.ready hready)
  | entered m =>
      refine ⟨m, h.numbered m rfl, Or.inr ?_⟩
      simp [h.readies, ReadyCourse.stage?]
  | inHook m =>
      refine ⟨m, h.numbered m rfl, Or.inr ?_⟩
      simp [h.readies, ReadyCourse.stage?]
  | ended m how =>
      refine ⟨m, h.numbered m rfl, Or.inl ⟨how, (h.mem_log rfl).mpr ?_⟩⟩
      simp [ReadyCourse.events]

/--
**What the success of a call rests on.**  Let an action of any run bring success to a call that makes
the service ready.  Then the ready hook has succeeded, for this call or for an earlier one; or the
call has found the service ready, which an earlier call had made it whose hook has failed, has
panicked or has not ended.  No other call runs the hook.
-/
theorem ready_succeeds (name : String) (earlier : List ServiceAction) (a : ServiceAction)
    {v v' : ServiceTraffic} (hv : v = (new name).run earlier) (hv' : v' = v.perform a)
    {events : List ServiceEvent} (hlog : v'.log = v.log ++ events)
    (hok : readyEnded n (.ok ()) ∈ events) :
    ((∃ m, m ≤ n ∧ readyHookEnded m .succeeded ∈ v'.log) ∨
      v.lifecycle.state = .ready ∧
        ∃ m, m < n ∧ ((∃ how, how ≠ .succeeded ∧ readyHookEnded m how ∈ v.log) ∨
          v.readies.get? m ≠ none)) ∧
    ∀ m m', readyHookBegan m ∈ v'.log → readyHookBegan m' ∈ v'.log → m = m' := by
  obtain ⟨c, h⟩ := (readied_new name).run earlier
  rw [← hv] at h
  obtain ⟨c', -, h'⟩ := h.perform a
  rw [← hv'] at h'
  refine ⟨?_, fun m m' hm hm' => Option.some.inj
    ((h'.caller_of_began hm).symm.trans (h'.caller_of_began hm'))⟩
  have hmove := readyMove_perform v a
  rw [← hv'] at hmove
  cases hmove with
  | enters hstate =>
      obtain rfl : [] = events := List.append_cancel_left ((List.append_nil _).trans hlog)
      exact absurd hok List.not_mem_nil
  | passes hstate =>
      obtain rfl := List.append_cancel_left hlog
      obtain rfl : n = v.next := by simpa using hok
      obtain ⟨m, hm, ⟨how, hended⟩ | hstage⟩ := h.of_ready hstate
      · by_cases hhow : how = .succeeded
        · subst hhow
          exact Or.inl ⟨m, Nat.le_of_lt hm, List.mem_append_left _ hended⟩
        · exact Or.inr ⟨hstate, m, hm, Or.inl ⟨how, hhow, hended⟩⟩
      · exact Or.inr ⟨hstate, m, hm, Or.inr hstage⟩
  | refused e =>
      obtain rfl := List.append_cancel_left hlog
      exact absurd hok (by simp)
  | begins hstage =>
      obtain rfl := List.append_cancel_left hlog
      exact absurd hok (by simp)
  | @ends m how hstage =>
      obtain rfl := List.append_cancel_left hlog
      obtain ⟨rfl, rfl⟩ := HookEnd.ok_mem_readyEvents (List.mem_of_ne_of_mem (by simp) hok)
      exact Or.inl ⟨n, Nat.le_refl n, by simp⟩
  | aside _ _ hlog' hevents =>
      obtain rfl := List.append_cancel_left (hlog'.symm.trans hlog)
      exact absurd rfl (hevents _ hok)

/-- The first call fails in the hook. -/
def failedReady : List ServiceAction :=
  [.ready, .proceedReady 0 .succeeded, .proceedReady 0 (.failed (.hook "ready failed"))]

/-- The first call is in the hook. -/
def pendingReady : List ServiceAction := [.ready, .proceedReady 0 .succeeded]

/-- After the failure the next call finds the service ready. -/
theorem ready_succeeds_after_failure :
    ((new "s").run failedReady).lifecycle.state = .ready ∧
      ∃ m, m < 1 ∧ ∃ how, how ≠ .succeeded ∧
        readyHookEnded m how ∈ ((new "s").run failedReady).log := by
  have hlog : ((new "s").run failedReady).log =
      [readyHookBegan 0, readyHookEnded 0 (.failed (.hook "ready failed")),
        readyEnded 0 (.error (.hook "ready failed"))] := rfl
  have hnext : (((new "s").run failedReady).perform .ready).log =
      ((new "s").run failedReady).log ++ [readyEnded 1 (.ok ())] := rfl
  have hreadies : ((new "s").run failedReady).readies = ∅ := by decide
  obtain ⟨⟨m, -, hended⟩ | ⟨hstate, m, hm, hfailed | hstage⟩, -⟩ :=
    ready_succeeds "s" failedReady .ready rfl rfl hnext List.mem_cons_self
  · rw [hnext, hlog] at hended
    exact absurd hended (by simp)
  · exact ⟨hstate, m, hm, hfailed⟩
  · rw [hreadies] at hstage
    exact absurd rfl hstage

/-- A call may succeed although the hook never has: it has failed, or is still running. -/
theorem exists_ready_without_hook :
    (readyEnded 1 (.ok ()) ∈ ((new "s").run (failedReady ++ [.ready])).log ∧
      ∀ m, readyHookEnded m .succeeded ∉ ((new "s").run (failedReady ++ [.ready])).log) ∧
    (readyEnded 1 (.ok ()) ∈ ((new "s").run (pendingReady ++ [.ready])).log ∧
      ((new "s").run (pendingReady ++ [.ready])).readies.get? 0 = some .inHook ∧
      ∀ m how, readyHookEnded m how ∉ ((new "s").run (pendingReady ++ [.ready])).log) := by
  have hfailed : ((new "s").run (failedReady ++ [.ready])).log =
      [readyHookBegan 0, readyHookEnded 0 (.failed (.hook "ready failed")),
        readyEnded 0 (.error (.hook "ready failed")), readyEnded 1 (.ok ())] := rfl
  have hpending : ((new "s").run (pendingReady ++ [.ready])).log =
      [readyHookBegan 0, readyEnded 1 (.ok ())] := rfl
  rw [hfailed, hpending]
  exact ⟨⟨by simp, by simp⟩, by simp, by decide, by simp⟩

/-! ### The two hooks -/

/-- In a service that is closing nothing more becomes of the ready hook, unless its call is under
way. -/
theorem Readied.run_of_closing (h : w.Readied c) (hidle : ∀ m, c.stage? m = none)
    (hclosing : w.lifecycle.state.isClosing = true) (horderly : w.Orderly)
    (later : List ServiceAction) : (w.run later).Readied c := by
  induction later generalizing w with
  | nil => exact h
  | cons a rest ih =>
      obtain ⟨c', hadvances, h'⟩ := h.perform a
      have hclosing' : (w.perform a).lifecycle.state.isClosing = true :=
        ServiceState.isClosing_iff.mpr (Nat.le_trans (ServiceState.isClosing_iff.mp hclosing)
          (horderly.onward [a]).state)
      cases hadvances with
      | stays => exact ih h' hclosing' (horderly.perform a)
      | enters hstate =>
          rw [hstate] at hclosing
          cases hclosing
      | @begins n => exact absurd (hidle n) (by simp [ReadyCourse.stage?])
      | @ends n => exact absurd (hidle n) (by simp [ReadyCourse.stage?])

/--
**When the ready hook keeps out of the way of the shutdown hook.**  Let the shutdown hook be about to
begin.  Whatever happens later, the ready hook has ended by then if it ever begins, exactly if no call
that makes the service ready is under way at that moment.  There is one such call at most, it alone
runs the hook, and it has begun before any shutdown.
-/
theorem ready_hook_order (name : String) (earlier : List ServiceAction) (how : HookEnd)
    {v : ServiceTraffic} (hv : v = (new name).run earlier)
    (hstarted : v.lifecycle.teardown = .started) :
    (v.perform (.work how)).log = v.log ++ [hookBegan] ∧
    ((∀ later n, readyHookBegan n ∈ (v.run (.work how :: later)).log →
        ∃ ending, readyHookEnded n ending ∈ v.log) ↔
      ∀ n, v.readies.get? n = none) ∧
    ∀ later n, readyHookBegan n ∈ (v.run (.work how :: later)).log →
      (∀ m, readyHookBegan m ∈ (v.run (.work how :: later)).log → m = n) ∧
        ∀ k, shutdownBegan k ∈ (v.run (.work how :: later)).log → n < k := by
  obtain ⟨c, h⟩ := (readied_new name).run earlier
  have horderly : v.Orderly := hv ▸ (Orderly.new name).run earlier
  rw [← hv] at h
  have hclosing := (horderly.sound.closed (by simp [hstarted])).2
  have hwork : v.perform (.work how) =
      { v with lifecycle := v.lifecycle.beginTeardown, log := v.log ++ [hookBegan] } := by
    simp [perform, work, hstarted]
  refine ⟨by rw [hwork], ⟨fun hall n => ?_, fun hidle later n hn => ?_⟩, fun later n hn => ?_⟩
  · by_contra hbusy
    obtain ⟨stage, hstage⟩ := Option.ne_none_iff_exists'.mp hbusy
    obtain ⟨hnot, hinside⟩ := h.of_busy hstage
    cases stage with
    | entered =>
        -- The call may enter the hook right after the shutdown hook has begun.
        have hlate : readyHookBegan n ∈ (v.run [.work how, .proceedReady n .succeeded]).log := by
          show readyHookBegan n ∈ ((v.perform (.work how)).perform (.proceedReady n .succeeded)).log
          rw [hwork]
          simp [perform, hstage]
        obtain ⟨ending, hended⟩ := hall [.proceedReady n .succeeded] n hlate
        exact hnot ending hended
    | inHook =>
        have hbegan : readyHookBegan n ∈ (v.run [.work how]).log := by
          show readyHookBegan n ∈ (v.perform (.work how)).log
          rw [hwork]
          exact List.mem_append_left _ (hinside rfl)
        obtain ⟨ending, hended⟩ := hall [] n hbegan
        exact hnot ending hended
  · have hnone : ∀ m, c.stage? m = none := fun m => (h.readies m).symm.trans (hidle m)
    have hlast := h.run_of_closing hnone hclosing horderly (.work how :: later)
    exact h.ended_of_idle hnone ((hlast.mem_log rfl).mp hn)
  · obtain ⟨c', hlast⟩ := h.run (.work how :: later)
    have hcaller := hlast.caller_of_began hn
    exact ⟨fun m hm => Option.some.inj ((hlast.caller_of_began hm).symm.trans hcaller),
      hlast.first n hcaller⟩

/-- The service is made ready, and then a shutdown finds no call in progress. -/
def closedAfterReady : List ServiceAction :=
  [.ready, .proceedReady 0 .succeeded, .proceedReady 0 .succeeded, .shutDown]

/-- The ready hook has ended before, and nothing that happens later brings it back. -/
theorem ready_hook_order_after_ready :
    ((new "s").run closedAfterReady).lifecycle.teardown = .started ∧
      ∀ later n, readyHookBegan n ∈
          (((new "s").run closedAfterReady).run (.work .succeeded :: later)).log →
        ∃ ending, readyHookEnded n ending ∈ ((new "s").run closedAfterReady).log := by
  have hstarted : ((new "s").run closedAfterReady).lifecycle.teardown = .started := by decide
  have hreadies : ((new "s").run closedAfterReady).readies = ∅ := by decide
  obtain ⟨-, horder, -⟩ := ready_hook_order "s" closedAfterReady .succeeded rfl hstarted
  refine ⟨hstarted, horder.mpr fun n => ?_⟩
  rw [hreadies]
  rfl

/-- The shutdown hook begins while the ready hook is about to begin, or is running. -/
theorem exists_ready_hook_beside_shutdown :
    (∃ before after, ((new "s").run [.ready, .shutDown, .work .succeeded,
        .proceedReady 0 .succeeded]).log = before ++ hookBegan :: after ∧
      readyHookBegan 0 ∈ after) ∧
    ((new "s").run (pendingReady ++ [.shutDown, .work .succeeded])).readies.get? 0 = some .inHook ∧
      hookBegan ∈ ((new "s").run (pendingReady ++ [.shutDown, .work .succeeded])).log := by
  refine ⟨⟨[shutdownBegan 1], [readyHookBegan 0], rfl, List.mem_cons_self⟩, by decide, ?_⟩
  have hlog : ((new "s").run (pendingReady ++ [.shutDown, .work .succeeded])).log =
      [readyHookBegan 0, shutdownBegan 1, hookBegan] := rfl
  rw [hlog]
  simp

end ServiceTraffic

end ObjectStore
