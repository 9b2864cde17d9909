/-
A store is frozen once it has been shut down.

`Move` lists what an action can do to a store in service, and `Guarded` is what every move keeps: the
service is in order, whoever is at the store on behalf of a counted call has its guard, and once the
backend has been shut down it is closed.  A participant call that tells of a commit has shown it at the
moment at which the backend carried it out, and the backend carries nothing out after its end.

The main statement is `frozen_once_closed`.  A batch without members is the one thing besides an abort
that a frozen store still grants (`emptyBatch_granted`).
-/
import ObjectStore.Proofs.Backend.Closed
import ObjectStore.Proofs.Service.Closing
import ObjectStore.Proofs.Service.Served
import ObjectStore.Proofs.Store.Step

namespace ObjectStore

namespace ServedEvent

/-- Whether an event may come after those that came before. -/
def Fits (before : List ServedEvent) : ServedEvent → Prop
  | seen _ (.committed _) => closed ∉ before
  | seen n (.participated t call (.ok _)) =>
    call = .commit ∨ call = .prepareAndCommit → seen n (.committed t) ∈ before
  | closed => closed ∉ before
  | _ => True

/-- What an operation shows fits anywhere. -/
theorem fits_of_operation {t : TxnId} {op : Operation} {stage stage' : Stage} {n : Nat}
    {e : ServedEvent} (he : e ∈ (Event.ofStep t op stage stage').map (seen n))
    (before : List ServedEvent) : e.Fits before := by
  obtain ⟨event, hevent, rfl⟩ := List.mem_map.mp he
  unfold Event.ofStep at hevent
  split at hevent
  · obtain rfl := List.mem_singleton.mp hevent
    trivial
  · obtain rfl := List.mem_singleton.mp hevent
    trivial
  · exact absurd hevent List.not_mem_nil

theorem closed_mem_append {log : List ServedEvent} {events : List Event} {n : Nat} :
    closed ∈ log ++ events.map (seen n) ↔ closed ∈ log := by
  simp

end ServedEvent

open ServedEvent

/-- What is known of a participant call at a stage, where `shown` is that it has shown a commit. -/
def ParticipantStage.Tracks (call : ParticipantCall) (shown : Prop) : ParticipantStage → Prop
  | enter call' => call' = call
  | backend call' => call' = call
  | committed _ => shown
  | releaseObjects (.ok _) => call = .abort ∨ shown
  | releaseNames (.ok _) => call = .abort ∨ shown
  | _ => True

theorem ParticipantStage.Tracks.mono {call : ParticipantCall} {shown shown' : Prop}
    {stage : ParticipantStage} (h : stage.Tracks call shown) (himp : shown → shown') :
    stage.Tracks call shown' := by
  unfold Tracks at h ⊢
  split at h
  · exact h
  · exact h
  · exact himp h
  · exact h.imp_right himp
  · exact h.imp_right himp
  · trivial

section Steps

variable {ρo ρn : Type} [Reporter ρo ObjectId] [Reporter ρn NameKey]
variable {s store : Store ρo ρn Memory} {t : TxnId} {n : Nat} {log : List ServedEvent}
variable {call : ParticipantCall} {stage stage' : ParticipantStage}

/-- A step of a participant call is known of, and what it shows is in order. -/
theorem tracks_participantStep (hleft : 0 < stage.stepsLeft)
    (hstep : s.participantStep t stage = (stage', store))
    (htracks : stage.Tracks call (seen n (.committed t) ∈ log)) (hinOrder : InOrder Fits log)
    (hclosed : closed ∈ log → s.backend.IsClosed) :
    let log' := log ++ (Event.ofParticipantStep t call stage stage').map (seen n)
    stage'.Tracks call (seen n (.committed t) ∈ log') ∧ InOrder Fits log' := by
  intro log'
  have hsilent : Event.ofParticipantStep t call stage stage' = [] → log' = log := by
    intro hnothing
    simp [log', hnothing]
  cases stage with
  | enter call' =>
      obtain rfl : call' = call := htracks
      simp only [Store.participantStep] at hstep
      split at hstep <;> obtain ⟨rfl, -⟩ := Prod.mk.inj hstep <;> rw [hsilent rfl]
      · exact ⟨rfl, hinOrder⟩
      · exact ⟨trivial, hinOrder⟩
  | backend call' =>
      obtain rfl : call' = call := htracks
      obtain ⟨backend, hbackend⟩ := s.callBackend_backend t call'
      have hcallBackend : s.callBackend t call' = (stage', store) := hstep
      obtain rfl : store = { s with backend } := by rw [← hbackend, hcallBackend]
      cases called_of_callBackend hcallBackend with
      | refused =>
          rw [hsilent rfl]
          exact ⟨trivial, hinOrder⟩
      | commits hopen =>
          have hbefore : closed ∉ log := by
            intro hin
            rw [(hclosed hin).shut] at hopen
            cases hopen
          exact ⟨by simp [ParticipantStage.Tracks, log', Event.ofParticipantStep],
            hinOrder.concat hbefore⟩
      | prepares => exact ⟨trivial, hinOrder.concat fun hcommits => by simp at hcommits⟩
      | loses =>
          rw [hsilent rfl]
          exact ⟨trivial, hinOrder⟩
      | aborts =>
          rw [hsilent rfl]
          exact ⟨Or.inl rfl, hinOrder⟩
  | committed reply =>
      obtain ⟨rfl, -⟩ := Prod.mk.inj hstep
      rw [hsilent rfl]
      exact ⟨Or.inr htracks, hinOrder⟩
  | releaseObjects result =>
      obtain ⟨rfl, -⟩ := Prod.mk.inj hstep
      rw [hsilent rfl]
      exact ⟨by cases result <;> exact htracks, hinOrder⟩
  | releaseNames result =>
      obtain ⟨rfl, -⟩ := Prod.mk.inj hstep
      cases result with
      | error e =>
          rw [hsilent rfl]
          exact ⟨trivial, hinOrder⟩
      | ok reply =>
          refine ⟨trivial, hinOrder.concat fun hcommits => ?_⟩
          rcases htracks with rfl | hshown
          · simp at hcommits
          · exact hshown
  | failing e =>
      obtain ⟨rfl, -⟩ := Prod.mk.inj hstep
      exact ⟨trivial, hinOrder.concat trivial⟩
  | ended result => exact absurd hleft (Nat.lt_irrefl 0)

end Steps

theorem ServiceTraffic.mem_guards_perform {w : ServiceTraffic} {a : ServiceAction} {g : Nat}
    (hg : g ∈ w.guards) (ha : a ≠ .drop g) : g ∈ (w.perform a).guards := by
  cases a with
  | ready =>
      simp only [perform]
      split <;> exact hg
  | proceedReady n how =>
      simp only [perform]
      split <;> exact hg
  | startCall =>
      simp only [perform]
      split
      · exact List.mem_cons_of_mem _ hg
      · exact hg
  | drop g' =>
      have hother : g ≠ g' := fun heq => ha (by rw [heq])
      simp only [perform]
      split
      · exact (List.mem_erase_of_ne hother).mpr hg
      · exact hg
  | shutDown =>
      simp only [perform, arrive_guards]
      exact hg
  | resume n =>
      simp only [perform]
      split
      · exact hg
      · rw [arrive_guards]
        exact hg
  | interrupt => exact hg
  | work how =>
      simp only [perform, work]
      split <;> exact hg

namespace ServedTraffic

variable {ρo ρn : Type} {w w' : ServedTraffic ρo ρn Memory} {was : Bool}

theorem isBusy_of_call {n g : Nat} {c : OpenCall} (hcall : w.calls.get? n = some c)
    (hguard : c.guard = some g) : w.isBusy g = true := by
  refine List.any_eq_true.mpr ⟨(n, c), (FinMap.get?_eq_some_iff _ _ _).mp hcall, ?_⟩
  simpa using hguard

/-- What holds of a store in service whose backend was shut down before, or was not. -/
structure Guarded (was : Bool) (w : ServedTraffic ρo ρn Memory) : Prop where
  orderly : w.service.Orderly
  /-- Whoever is at the store on behalf of a counted call has its guard. -/
  inside : ∀ n c g, w.calls.get? n = some c → c.guard = some g → g ∈ w.service.guards
  tracks : ∀ n c call stage, w.calls.get? n = some c → c.call = .participation call stage →
    stage.Tracks call (seen n (.committed c.t) ∈ w.log)
  inOrder : InOrder Fits w.log
  isClosed : closed ∈ w.log → w.store.backend.IsClosed
  answered : closed ∈ w.log → ∃ how, w.hook = some (.answered how)
  shut : w.store.backend.isShutDown = true ↔ was = true ∨ closed ∈ w.log
  numbered : ∀ n c, w.calls.get? n = some c → n < w.next
  given : ∀ n event, seen n event ∈ w.log → n < w.next

namespace Guarded

theorem new (s : Store ρo ρn Memory) : Guarded s.backend.isShutDown (new s) where
  orderly := .new _
  inside := by simp [ServedTraffic.new]
  tracks := by simp [ServedTraffic.new]
  inOrder := .nil
  isClosed := by simp [ServedTraffic.new]
  answered := by simp [ServedTraffic.new]
  shut := by simp [ServedTraffic.new]
  numbered := by simp [ServedTraffic.new]
  given := by simp [ServedTraffic.new]

theorem guards_of_isInHook (h : Guarded was w) (hinside : w.service.isInHook = true) :
    w.service.guards = [] := by
  obtain ⟨hrunning, -⟩ := Bool.and_eq_true_iff.mp hinside
  have hteardown : w.service.lifecycle.teardown = .running := of_decide_eq_true hrunning
  exact (h.orderly.sound.closed (by simp [hteardown])).1

theorem receive (h : Guarded was w) {c : OpenCall} {store : Store ρo ρn Memory}
    (hadmits : w.admits c.guard = true) (hsame : store.backend = w.store.backend)
    (henters : ∀ call stage, c.call = .participation call stage → stage = .enter call) :
    Guarded was (w.receive c store) where
  orderly := h.orderly
  inside := by
    intro n c' g hcall hguard
    simp only [ServedTraffic.receive] at hcall
    rw [FinMap.get?_insert] at hcall
    split at hcall
    · obtain rfl : c = c' := by simpa using hcall
      rw [hguard] at hadmits
      exact List.contains_iff_mem.mp hadmits
    · exact h.inside n c' g hcall hguard
  tracks := by
    intro n c' call stage hcall hstage
    simp only [ServedTraffic.receive] at hcall ⊢
    rw [FinMap.get?_insert] at hcall
    split at hcall
    · obtain rfl : c = c' := by simpa using hcall
      rw [henters call stage hstage]
      rfl
    · exact h.tracks n c' call stage hcall hstage
  inOrder := h.inOrder
  isClosed := fun hin => (congrArg Memory.IsClosed hsame).mpr (h.isClosed hin)
  answered := h.answered
  shut := by
    show store.backend.isShutDown = true ↔ _
    rw [hsame]
    exact h.shut
  numbered := by
    intro n c' hcall
    simp only [ServedTraffic.receive] at hcall ⊢
    rw [FinMap.get?_insert] at hcall
    split at hcall
    · omega
    · exact Nat.lt_succ_of_lt (h.numbered n c' hcall)
  given := fun n event hin => Nat.lt_succ_of_lt (h.given n event hin)

/-- A call has taken a step; it is left to say what is known of it now. -/
theorem arrive (h : Guarded was w) {n : Nat} {c : OpenCall} {left : Option Call}
    {store : Store ρo ρn Memory} {events : List Event} (hcall : w.calls.get? n = some c)
    (hasked : w.store.backend.Asked c.t store.backend)
    (hinOrder : InOrder Fits (w.log ++ events.map (seen n)))
    (htracks : ∀ call stage, left = some (.participation call stage) →
      stage.Tracks call (seen n (.committed c.t) ∈ w.log ++ events.map (seen n))) :
    Guarded was (w.arrive n c left store events) where
  orderly := h.orderly
  inside := by
    intro n' c' g hcall' hguard
    simp only [ServedTraffic.arrive] at hcall'
    rw [FinMap.get?_change] at hcall'
    split at hcall'
    · obtain ⟨call, -, rfl⟩ := Option.map_eq_some_iff.mp hcall'
      exact h.inside n c g hcall hguard
    · exact h.inside n' c' g hcall' hguard
  tracks := by
    intro n' c' call stage hcall' hstage
    simp only [ServedTraffic.arrive] at hcall' ⊢
    rw [FinMap.get?_change] at hcall'
    split at hcall'
    · rename_i hsame
      subst hsame
      obtain ⟨call', hleft, rfl⟩ := Option.map_eq_some_iff.mp hcall'
      obtain rfl : call' = .participation call stage := hstage
      exact htracks call stage hleft
    · exact (h.tracks n' c' call stage hcall' hstage).mono (List.mem_append_left _)
  inOrder := hinOrder
  isClosed := by
    intro hin
    have hclosed := h.isClosed (closed_mem_append.mp hin)
    show store.backend.IsClosed
    rwa [hclosed.asked hasked]
  answered := fun hin => h.answered (closed_mem_append.mp hin)
  shut := by
    show store.backend.isShutDown = true ↔ _
    rw [hasked.isShutDown, h.shut, ServedTraffic.arrive, closed_mem_append]
  numbered := by
    intro n' c' hcall'
    simp only [ServedTraffic.arrive] at hcall' ⊢
    rw [FinMap.get?_change] at hcall'
    split at hcall'
    · rename_i hsame
      exact hsame ▸ h.numbered n c hcall
    · exact h.numbered n' c' hcall'
  given := by
    intro n' event hin
    rcases List.mem_append.mp hin with hbefore | hnow
    · exact h.given n' event hbefore
    · obtain ⟨_, -, hsame⟩ := List.mem_map.mp hnow
      cases hsame
      exact h.numbered n c hcall

/-- Whoever tells of a commit after the end of the backend has shown it before. -/
theorem committed_before (h : Guarded was w) {before after : List ServedEvent} {n : Nat}
    {t : TxnId} {call : ParticipantCall} {reply : Reply} (hlog : w.log = before ++ closed :: after)
    (hcall : call = .commit ∨ call = .prepareAndCommit)
    (hin : seen n (.participated t call (.ok reply)) ∈ after) : seen n (.committed t) ∈ before := by
  obtain ⟨since, rest, rfl⟩ := List.append_of_mem hin
  have hshown : seen n (.committed t) ∈ before ++ closed :: since := by
    have hparts : w.log = (before ++ closed :: since) ++
        seen n (.participated t call (.ok reply)) :: rest := by simpa using hlog
    exact h.inOrder.fits hparts hcall
  rcases List.mem_append.mp hshown with hbefore | hsince
  · exact hbefore
  · have hafter : seen n (.committed t) ∈ since := by simpa using hsince
    obtain ⟨between, rest', rfl⟩ := List.append_of_mem hafter
    have hparts : w.log = (before ++ closed :: between) ++ seen n (.committed t) ::
        (rest' ++ seen n (.participated t call (.ok reply)) :: rest) := by simpa using hlog
    have hopen : closed ∉ before ++ closed :: between := h.inOrder.fits hparts
    exact absurd (by simp) hopen

end Guarded

variable [Reporter ρo ObjectId] [Reporter ρn NameKey]

/-- What an action can do to a store in service. -/
inductive Move (w : ServedTraffic ρo ρn Memory) : ServedTraffic ρo ρn Memory → Prop where
  | still : Move w w
  /-- The service goes on, and every call at the store keeps its guard. -/
  | serves (a : ServiceAction)
    (hkeeps : ∀ n c g, w.calls.get? n = some c → c.guard = some g → a ≠ .drop g) :
    Move w { w with service := w.service.perform a }
  | touches {store : Store ρo ρn Memory} (hsame : store.backend = w.store.backend) :
    Move w { w with store }
  /-- The hook looks at the store's own flag. -/
  | notes {store : Store ρo ρn Memory} {stage : HookStage} (hhook : w.hook = none)
    (hsame : store.backend = w.store.backend) : Move w { w with store, hook := some stage }
  | closes {how : HookEnd} (hinside : w.service.isInHook = true) (hhook : w.hook = some .noted) :
    Move w
      { w with
        store := { w.store with backend := w.store.backend.shutdown }
        hook := some (.answered how)
        log := w.log ++ [.closed] }
  | admits {c : OpenCall} {store : Store ρo ρn Memory} (hadmits : w.admits c.guard = true)
    (hsame : store.backend = w.store.backend)
    (henters : ∀ call stage, c.call = .participation call stage → stage = .enter call) :
    Move w (w.receive c store)
  | operates {n : Nat} {c : OpenCall} {op : Operation} {stage stage' : Stage}
    {store : Store ρo ρn Memory} (hcall : w.calls.get? n = some c)
    (hasked : w.store.backend.Asked c.t store.backend) :
    Move w (w.arrive n c (Call.ofStage op stage') store (Event.ofStep c.t op stage stage'))
  | participates {n : Nat} {c : OpenCall} {call : ParticipantCall}
    {stage stage' : ParticipantStage} {store : Store ρo ρn Memory}
    (hcall : w.calls.get? n = some c) (hstage : c.call = .participation call stage)
    (hleft : 0 < stage.stepsLeft) (hstep : w.store.participantStep c.t stage = (stage', store)) :
    Move w (w.arrive n c (Call.ofParticipantStage call stage') store
      (Event.ofParticipantStep c.t call stage stage'))

theorem move_work (w : ServedTraffic ρo ρn Memory) : w.Move w.work := by
  unfold work
  split
  · rename_i hinside
    split
    · rename_i hhook
      split
      · exact .notes hhook rfl
      · exact .notes hhook rfl
    · rename_i hhook
      have hcall : w.store.call ⟨0⟩ .shutdown =
          (.ok (), { w.store with backend := w.store.backend.shutdown }) := by
        simp only [Store.call, Backend.perform, Memory.perform_shutdown]
      rw [hcall]
      exact .closes hinside hhook
    · exact .serves _ fun _ _ _ _ _ => by simp
  · exact .serves _ fun _ _ _ _ _ => by simp

theorem move_serve (w : ServedTraffic ρo ρn Memory) (a : ServiceAction) : w.Move (w.serve a) := by
  unfold serve
  split
  · exact w.move_work
  · rename_i g
    split
    · exact .still
    · rename_i hidle
      refine .serves _ fun n c g' hcall hguard hsame => hidle ?_
      obtain rfl : g = g' := by simpa using hsame
      exact isBusy_of_call hcall hguard
  · rename_i hdrop
    exact .serves _ fun _ _ g _ _ hsame => hdrop g hsame

theorem move_proceed (w : ServedTraffic ρo ρn Memory) (n : Nat) : w.Move (w.proceed n) := by
  unfold proceed
  split
  · exact .still
  · rename_i c hcall
    split
    · rename_i op stage hstage
      split
      · exact .operates hcall (w.store.asked_step c.t stage)
      · exact .still
    · rename_i call stage hstage
      split
      · rename_i hleft
        exact .participates hcall hstage hleft rfl
      · exact .still

/-- **What an action can have done.** -/
theorem move_perform (w : ServedTraffic ρo ρn Memory) (a : ServedAction) :
    w.Move (w.perform a) := by
  cases a with
  | serve a => exact w.move_serve a
  | begin t seniority lifetime =>
      simp only [perform]
      split
      · exact .still
      · exact .touches rfl
  | operate guard t op =>
      simp only [perform]
      split
      · rename_i hcan
        refine .admits (Bool.and_eq_true_iff.mp hcan).1 (w.store.backend_start t op) ?_
        intro call stage hstage
        cases hstage
      · exact .still
  | participate guard t call =>
      simp only [perform]
      split
      · rename_i hcan
        refine .admits (Bool.and_eq_true_iff.mp hcan).1 rfl ?_
        intro call' stage hstage
        cases hstage
        rfl
      · exact .still
  | proceed n => exact w.move_proceed n
  | cancel t cause => exact .touches rfl
  | wound t reason => exact .touches rfl
  | describe t subject text => exact .touches (by cases subject <;> rfl)
  | tick n => exact .touches rfl

namespace Guarded

theorem move (h : Guarded was w) (hmove : w.Move w') : Guarded was w' := by
  cases hmove with
  | still => exact h
  | serves a hkeeps =>
      refine ⟨h.orderly.perform a, fun n c g hcall hguard => ?_, h.tracks, h.inOrder, h.isClosed,
        h.answered, h.shut, h.numbered, h.given⟩
      exact ServiceTraffic.mem_guards_perform (h.inside n c g hcall hguard)
        (hkeeps n c g hcall hguard)
  | touches hsame =>
      exact ⟨h.orderly, h.inside, h.tracks, h.inOrder, hsame ▸ h.isClosed, h.answered,
        hsame ▸ h.shut, h.numbered, h.given⟩
  | notes hhook hsame =>
      refine ⟨h.orderly, h.inside, h.tracks, h.inOrder, hsame ▸ h.isClosed, fun hin => ?_,
        hsame ▸ h.shut, h.numbered, h.given⟩
      obtain ⟨how, hanswered⟩ := h.answered hin
      rw [hhook] at hanswered
      cases hanswered
  | closes hinside hhook =>
      have hfirst : closed ∉ w.log := by
        intro hin
        obtain ⟨how, hanswered⟩ := h.answered hin
        rw [hhook] at hanswered
        cases hanswered
      refine ⟨h.orderly, h.inside, fun n c call stage hcall hstage => ?_, h.inOrder.concat hfirst,
        fun _ => Memory.isClosed_shutdown _, fun _ => ⟨_, rfl⟩, by simp [Memory.shutdown],
        h.numbered, fun n event hin => h.given n event (by simpa using hin)⟩
      exact (h.tracks n c call stage hcall hstage).mono (List.mem_append_left _)
  | admits hadmits hsame henters => exact h.receive hadmits hsame henters
  | @operates n c op stage stage' store hcall hasked =>
      refine h.arrive hcall hasked (h.inOrder.append fun e he => fits_of_operation he) ?_
      intro call stage' hleft
      exact absurd hleft (by unfold Call.ofStage; split <;> simp)
  | @participates n c call stage stage' store hcall hstage hleft hstep =>
      have hasked := w.store.asked_participantStep c.t stage
      rw [hstep] at hasked
      obtain ⟨htracks, hinOrder⟩ := tracks_participantStep hleft hstep
        (h.tracks n c call stage hcall hstage) h.inOrder h.isClosed
      refine h.arrive hcall hasked hinOrder ?_
      intro call' stage'' hleft'
      unfold Call.ofParticipantStage at hleft'
      split at hleft'
      · cases hleft'
      · cases hleft'
        exact htracks

theorem run (h : Guarded was w) (actions : List ServedAction) : Guarded was (w.run actions) :=
  run_induction h (fun w a hw => hw.move (w.move_perform a)) actions

/-- **Once the backend has been shut down no move changes it.** -/
theorem backend_move (h : Guarded was w) (hin : closed ∈ w.log) (hmove : w.Move w') :
    w'.store.backend = w.store.backend := by
  cases hmove with
  | still => rfl
  | serves => rfl
  | touches hsame => exact hsame
  | notes _ hsame => exact hsame
  | closes _ hhook =>
      obtain ⟨how, hanswered⟩ := h.answered hin
      rw [hhook] at hanswered
      cases hanswered
  | admits _ hsame => exact hsame
  | operates _ hasked => exact (h.isClosed hin).asked hasked
  | @participates n c call stage stage' store _ _ _ hstep =>
      have hasked := w.store.asked_participantStep c.t stage
      rw [hstep] at hasked
      exact (h.isClosed hin).asked hasked

end Guarded

theorem Move.log_append (h : w.Move w') : ∃ events, w'.log = w.log ++ events := by
  cases h with
  | closes => exact ⟨_, rfl⟩
  | operates => exact ⟨_, rfl⟩
  | participates => exact ⟨_, rfl⟩
  | _ => exact ⟨[], (List.append_nil _).symm⟩

/-- Only the hook shuts the backend down. -/
theorem Move.isInHook_of_closed (h : w.Move w') (hlog : w'.log = w.log ++ [closed]) :
    w.service.isInHook = true := by
  have hgrew : ∀ {events : List ServedEvent}, w.log ++ events = w.log ++ [closed] →
      events = [closed] := List.append_cancel_left
  have hcalls : ∀ {n : Nat} {events : List Event}, events.map (seen n) ≠ [closed] := by
    intro n events heq
    have hin : closed ∈ events.map (seen n) := by simp [heq]
    simp at hin
  have hsilent : w.log ≠ w.log ++ [closed] := by simp
  cases h with
  | closes hinside => exact hinside
  | operates => exact absurd (hgrew hlog) hcalls
  | participates => exact absurd (hgrew hlog) hcalls
  | _ => exact absurd hlog hsilent

/-- What has been frozen stays so, and the log only grows. -/
theorem Guarded.later (h : Guarded was w) (hin : closed ∈ w.log) (actions : List ServedAction) :
    (w.run actions).store.backend = w.store.backend ∧
      ∃ events, (w.run actions).log = w.log ++ events := by
  induction actions generalizing w with
  | nil => exact ⟨rfl, [], (List.append_nil _).symm⟩
  | cons a rest ih =>
      have hmove := w.move_perform a
      obtain ⟨now, hnow⟩ := hmove.log_append
      obtain ⟨hsame, events, hevents⟩ := ih (h.move hmove) (hnow ▸ List.mem_append_left now hin)
      refine ⟨hsame.trans (h.backend_move hin hmove), now ++ events, ?_⟩
      rw [← List.append_assoc, ← hnow]
      exact hevents

/--
**A store is frozen once its service has shut it down.**  The backend is shut down once, and nobody is
at the store on behalf of a counted call then.  Afterwards the backend stays as it is, with nothing
buffered; every call is refused, unless it is an abort, another shutdown or a batch without members.
Whoever tells of a commit afterwards had it carried out before, and whoever comes to commit afterwards
does not succeed.
-/
theorem frozen_once_closed (s : Store ρo ρn Memory) (actions later : List ServedAction) :
    let w := (new s).run actions
    (∀ before after, w.log = before ++ closed :: after → closed ∉ before ∧ closed ∉ after) ∧
      (w.store.backend.isShutDown = true ↔ s.backend.isShutDown = true ∨ closed ∈ w.log) ∧
      (∀ a, (w.perform a).log = w.log ++ [closed] →
        w.service.guards = [] ∧ ∀ n c, w.calls.get? n = some c → c.guard = none) ∧
      (∀ before after n t call reply, w.log = before ++ closed :: after →
        call = .commit ∨ call = .prepareAndCommit →
          seen n (.participated t call (.ok reply)) ∈ after → seen n (.committed t) ∈ before) ∧
      (closed ∈ w.log →
        (w.run later).store.backend = w.store.backend ∧ w.store.backend.pending = ∅ ∧
          (∀ {α : Type} (c : BackendCall α) (t : TxnId),
            (Memory.perform c t w.store.backend).2 = w.store.backend ∧
              (c.kind ≠ .abort → c.kind ≠ .shutdown → c.isEmptyBatch = false →
                (Memory.perform c t w.store.backend).1 =
                  .error (.illegalState "backend is shut down"))) ∧
          ∀ n t call reply, w.next ≤ n → call = .commit ∨ call = .prepareAndCommit →
            seen n (.participated t call (.ok reply)) ∉ (w.run later).log) := by
  intro w
  have h : Guarded s.backend.isShutDown w := (Guarded.new s).run actions
  refine ⟨fun before after hlog => ?_, h.shut, fun a hlog => ?_,
    fun before after n t call reply hlog hcall hin => h.committed_before hlog hcall hin,
    fun hin => ?_⟩
  · refine ⟨h.inOrder.fits hlog, fun hagain => ?_⟩
    obtain ⟨between, rest, rfl⟩ := List.append_of_mem hagain
    have hparts : w.log = (before ++ closed :: between) ++ closed :: rest := by simpa using hlog
    have hfirst : closed ∉ before ++ closed :: between := h.inOrder.fits hparts
    exact hfirst (by simp)
  · have hnobody := h.guards_of_isInHook ((w.move_perform a).isInHook_of_closed hlog)
    refine ⟨hnobody, fun n c hcall => ?_⟩
    cases hguard : c.guard with
    | none => rfl
    | some g => simpa [hnobody] using h.inside n c g hcall hguard
  · have hclosed := h.isClosed hin
    obtain ⟨hsame, events, hevents⟩ := h.later hin later
    refine ⟨hsame, hclosed.pending, fun c t => ⟨hclosed.perform c t, hclosed.refuses t⟩, ?_⟩
    intro n t call reply hnew hcall hcommits
    obtain ⟨before, rest, hbefore⟩ := List.append_of_mem hin
    have hlog : (w.run later).log = before ++ closed :: (rest ++ events) := by
      rw [hevents, hbefore]
      simp
    have hafter : seen n (.participated t call (.ok reply)) ∈ rest ++ events := by
      rw [hlog] at hcommits
      rcases List.mem_append.mp hcommits with hearly | hlate
      · have hold := h.given n _ (hbefore ▸ List.mem_append_left _ hearly)
        omega
      · simpa using hlate
    have hshown := (h.run later).committed_before hlog hcall hafter
    have hold := h.given n _ (hbefore ▸ List.mem_append_left _ hshown)
    omega

/-- A store that has been shut down by its service grants a batch without members. -/
theorem emptyBatch_granted :
    let store : LockingStore Memory := (Traffic.new 1 Memory.empty).store
    let w := (new store).run
      [.begin ⟨1⟩ ⟨1, 0⟩ 10, .serve .shutDown, .serve (.work .succeeded), .serve (.work .succeeded),
        .serve (.work .succeeded), .operate none ⟨1⟩ (.setMany [] []), .proceed 0]
    w.log = [closed, seen 0 (.answered ⟨1⟩ (.setMany [] []) (.ok .done))] ∧
      (Memory.perform (.setMany []) ⟨1⟩ w.store.backend).1 = .ok () :=
  ⟨rfl, rfl⟩

end ServedTraffic

end ObjectStore
