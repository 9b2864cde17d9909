/-
Whether an end is final when several threads end one transaction.

Seen from one transaction a crowd goes through phases: the transaction is active, a thread is
preparing it, it is prepared, its writes are carried out, and the commit is noted; or it is aborted
on the way.  `Crowd.InPhase` says what each phase means for the status, the backend, the calls that
threads are in, and the answers that were given.

As long as no action collides, every action leads from a phase to a phase, and from the last two
nothing leads away.  With a collision either end may be undone: a commit is noted over an abort, and
a commit that finds no writes, because another one has lost them, succeeds.
-/
import ObjectStore.Proofs.Store.Crowd

namespace ObjectStore

namespace Memory

variable {m₀ m m' : Memory} {t : TxnId}

/-- Nothing has been committed since `m₀`, and what `t` saw there it sees, unless the backend has
been shut down. -/
structure Awaits (t : TxnId) (m₀ m : Memory) : Prop where
  objects : m.objects = m₀.objects
  names : m.names = m₀.names
  seen : m.isShutDown = false →
    (∀ oid, m.object? t oid = m₀.object? t oid) ∧ ∀ name, m.binding? t name = m₀.binding? t name

/-- What `t` saw at `m₀` is committed, and nothing is left of its writes. -/
structure Carried (t : TxnId) (m₀ m : Memory) : Prop where
  gone : m.pending.get? t = none
  objects : ∀ oid, m.objects.get? oid = m₀.object? t oid
  names : ∀ name, m.names.get? name = m₀.binding? t name

theorem Awaits.prepare (h : Awaits t m₀ m) :
    Awaits t m₀ (m.write t fun w => { w with prepared := true }) where
  objects := h.objects
  names := h.names
  seen := by
    intro hopen
    have hwrites : (m.write t fun w => { w with prepared := true }).writes t =
        { m.writes t with prepared := true } := by
      rw [writes_write, if_pos rfl]
    obtain ⟨hobjects, hnames⟩ := h.seen hopen
    refine ⟨fun oid => Eq.trans ?_ (hobjects oid), fun name => Eq.trans ?_ (hnames name)⟩
    · unfold object?
      rw [hwrites]
      rfl
    · unfold binding?
      rw [hwrites]
      rfl

theorem Awaits.shutdown (h : Awaits t m₀ m) : Awaits t m₀ m.shutdown :=
  ⟨h.objects, h.names, fun hopen => absurd hopen (by simp [Memory.shutdown])⟩

/-- Once the writes are carried out, there is nothing to carry out. -/
theorem Carried.again (h : Carried t m₀ m) (hgone : m'.pending.get? t = none)
    (hobjects : ∀ oid, m'.objects.get? oid = m.object? t oid)
    (hnames : ∀ name, m'.names.get? name = m.binding? t name) : Carried t m₀ m' where
  gone := hgone
  objects := fun oid =>
    ((hobjects oid).trans (object?_of_pending_eq_none h.gone oid).symm).trans (h.objects oid)
  names := fun name =>
    ((hnames name).trans (binding?_of_pending_eq_none h.gone name).symm).trans (h.names name)

end Memory

/-- How far a transaction has come that several threads are at. -/
inductive Phase where
  | active
  /-- A thread has been let in to prepare the writes, or to carry them out at once. -/
  | preparing (thread : Nat)
  | prepared
  /-- The writes have been carried out, and the status does not say so yet. -/
  | applied
  | committed
  | aborted

namespace Phase

/-- The state in a phase. -/
def state : Phase → TxnState
  | active => .active
  | preparing _ | prepared | applied => .prepared
  | committed => .committed
  | aborted => .aborted

/-- What the backend has in a phase, if it had `m₀` at the beginning. -/
def Backed (t : TxnId) (m₀ m : Memory) : Phase → Prop
  | active | preparing _ => Memory.Awaits t m₀ m
  | prepared =>
    Memory.Awaits t m₀ m ∧
      (m.isShutDown = false → ∃ w, m.pending.get? t = some w ∧ w.prepared = true)
  | applied | committed => Memory.Carried t m₀ m
  | aborted => m.objects = m₀.objects ∧ m.names = m₀.names

/-- The phase in which a call leaves the transaction that has ended it. -/
def ended : ParticipantCall → Phase
  | .abort => .aborted
  | _ => .committed

/-- The stages at which a thread may be with a call. -/
inductive Allows : Phase → Nat → ParticipantCall → ParticipantStage → Prop where
  | enters {p : Phase} {thread : Nat} {call : ParticipantCall} : Allows p thread call (.enter call)
  | prepares {thread : Nat} {call : ParticipantCall}
    (hcall : call = .prepare ∨ call = .prepareAndCommit) :
    Allows (.preparing thread) thread call (.backend call)
  | commits {p : Phase} {thread : Nat} (hp : p = .prepared ∨ p = .applied ∨ p = .committed) :
    Allows p thread .commit (.backend .commit)
  | aborts {thread : Nat} : Allows .aborted thread .abort (.backend .abort)
  | notes {p : Phase} {thread : Nat} {call : ParticipantCall} {reply : Reply}
    (hcall : call ≠ .abort) (hp : p = .applied ∨ p = .committed) :
    Allows p thread call (.committed reply)
  | releasesObjects {thread : Nat} {call : ParticipantCall} {reply : Reply} :
    Allows (ended call) thread call (.releaseObjects (.ok reply))
  | releasesNames {thread : Nat} {call : ParticipantCall} {reply : Reply} :
    Allows (ended call) thread call (.releaseNames (.ok reply))
  | fails {p : Phase} {thread : Nat} {call : ParticipantCall} {e : StoreError}
    (he : e.isAbort = true → p = .aborted) : Allows p thread call (.failing e)

/-- What has been told is so. -/
def Explains (p : Phase) (e : CrowdEvent) : Prop :=
  (e.isAbort = true → p = .aborted) ∧ (e.isCommit = true → p = .committed)

/-- The stages at one of which some thread has to be. -/
def awaited? : Phase → Option (ParticipantStage → Bool)
  | preparing _ => some ParticipantStage.isPreparing
  | applied => some ParticipantStage.isNoting
  | _ => none

theorem awaited?_aborted {kind : ParticipantStage → Bool} : awaited? .aborted ≠ some kind := nofun

/-- How one step of a thread may move the phase. -/
inductive Moves (thread : Nat) : Phase → Phase → Prop where
  | stays {p : Phase} : Moves thread p p
  | begins : Moves thread .active (.preparing thread)
  | prepares : Moves thread (.preparing thread) .prepared
  | appliesAtOnce : Moves thread (.preparing thread) .applied
  | applies : Moves thread .prepared .applied
  | notes : Moves thread .applied .committed
  | abortsActive : Moves thread .active .aborted
  | abortsPrepared : Moves thread .prepared .aborted

variable {p p' : Phase} {thread thread' : Nat} {call : ParticipantCall} {stage : ParticipantStage}

theorem eq_active (h : p.state = .active) : p = .active := by
  cases p <;> first | rfl | cases h

theorem ended_cases (call : ParticipantCall) :
    call = .abort ∧ ended call = .aborted ∨ call ≠ .abort ∧ ended call = .committed := by
  cases call <;> simp [ended]

theorem Moves.eq_of_final (h : Moves thread p p') (hfinal : p = .aborted ∨ p = .committed) :
    p' = p := by
  cases h <;> simp_all

theorem Moves.eq_ended (h : Moves thread (ended call) p') : p' = ended call :=
  h.eq_of_final ((ended_cases call).imp And.right And.right)

theorem Backed.shutdown {t : TxnId} {m₀ m : Memory} (h : p.Backed t m₀ m) :
    p.Backed t m₀ m.shutdown := by
  cases p with
  | active => exact Memory.Awaits.shutdown h
  | preparing => exact Memory.Awaits.shutdown h
  | prepared => exact ⟨h.1.shutdown, fun hopen => absurd hopen (by simp [Memory.shutdown])⟩
  | applied => exact ⟨FinMap.get?_empty t, h.objects, h.names⟩
  | committed => exact ⟨FinMap.get?_empty t, h.objects, h.names⟩
  | aborted => exact h

/-- The calls of other threads may go on, unless they are commits and the transaction is aborted. -/
theorem Allows.moves (h : p.Allows thread' call stage) (hmove : Moves thread p p')
    (hother : p = .preparing thread → thread ≠ thread')
    (hclear : p' = .aborted → p ≠ .aborted → stage.isCommitting = false) :
    p'.Allows thread' call stage := by
  cases h with
  | enters => exact .enters
  | prepares hcall =>
      cases hmove with
      | stays => exact .prepares hcall
      | prepares => exact absurd rfl (hother rfl)
      | appliesAtOnce => exact absurd rfl (hother rfl)
  | commits hp =>
      cases hmove with
      | stays => exact .commits hp
      | applies => exact .commits (Or.inr (Or.inl rfl))
      | notes => exact .commits (Or.inr (Or.inr rfl))
      | abortsPrepared => exact absurd (hclear rfl nofun) (by simp [ParticipantStage.isCommitting])
      | _ => simp at hp
  | aborts =>
      cases hmove
      exact .aborts
  | notes hcall hp =>
      cases hmove with
      | stays => exact .notes hcall hp
      | notes => exact .notes hcall (Or.inr rfl)
      | _ => simp at hp
  | releasesObjects =>
      rw [hmove.eq_ended]
      exact .releasesObjects
  | releasesNames =>
      rw [hmove.eq_ended]
      exact .releasesNames
  | fails he =>
      refine .fails fun habort => ?_
      have haborted := he habort
      rw [hmove.eq_of_final (Or.inl haborted), haborted]

theorem Explains.moves {e : CrowdEvent} (h : p.Explains e) (hmove : Moves thread p p') :
    p'.Explains e := by
  refine ⟨fun habort => ?_, fun hcommit => ?_⟩
  · have haborted := h.1 habort
    rw [hmove.eq_of_final (Or.inl haborted), haborted]
  · have hcommitted := h.2 hcommit
    rw [hmove.eq_of_final (Or.inr hcommitted), hcommitted]

end Phase

namespace Crowd

variable {ρo ρn : Type}

/-- What a phase means. -/
structure InPhase (t : TxnId) (m₀ : Memory) (p : Phase) (c : Crowd ρo ρn) : Prop where
  state : (c.store.register.find t).state = p.state
  backed : p.Backed t m₀ c.store.backend
  visits : ∀ thread v, c.visits.get? thread = some v → p.Allows thread v.call v.stage
  log : ∀ e ∈ c.log, p.Explains e
  awaited : ∀ kind, p.awaited? = some kind → c.someAt kind = true

variable {t : TxnId} {m₀ : Memory} {p p' : Phase} {c : Crowd ρo ρn} {thread : Nat}
variable {call : ParticipantCall} {stage stage' : ParticipantStage} {store : Store ρo ρn Memory}

theorem someAt_iff {kind : ParticipantStage → Bool} :
    c.someAt kind = true ↔ ∃ thread v, c.visits.get? thread = some v ∧ kind v.stage = true := by
  simp [someAt, FinMap.get?_eq_some_iff]

theorem store_arrive : (c.arrive thread call stage store).store = store := by
  unfold arrive
  split <;> rfl

theorem visits_arrive_of_ne {thread' : Nat} (hne : thread ≠ thread') :
    (c.arrive thread call stage store).visits.get? thread' = c.visits.get? thread' := by
  unfold arrive
  split
  · exact (FinMap.get?_erase _ _ _).trans (if_neg hne)
  · exact (FinMap.get?_insert _ _ _ _).trans (if_neg hne)

theorem visits_arrive_self {v : Visit}
    (h : (c.arrive thread call stage store).visits.get? thread = some v) : v = ⟨call, stage⟩ := by
  unfold arrive at h
  split at h
  · rw [FinMap.get?_erase, if_pos rfl] at h
    cases h
  · rw [FinMap.get?_insert, if_pos rfl] at h
    exact (Option.some.inj h).symm

theorem mem_log_arrive {e : CrowdEvent} (h : e ∈ (c.arrive thread call stage store).log) :
    e ∈ c.log ∨ ∃ result, stage = .ended result ∧ e = .participated call result := by
  unfold arrive at h
  split at h
  · rename_i result
    exact (List.mem_append.mp h).imp_right fun hin => ⟨result, rfl, List.mem_singleton.mp hin⟩
  · exact Or.inl h

/-- Some thread is at a stage of a kind if the one that moved is, or was not before. -/
theorem someAt_arrive {kind : ParticipantStage → Bool}
    (hended : ∀ result, kind (.ended result) = false)
    (hvisit : c.visits.get? thread = some ⟨call, stage⟩)
    (h : kind stage' = true ∨ kind stage = false ∧ c.someAt kind = true) :
    (c.arrive thread call stage' store).someAt kind = true := by
  rcases h with hself | ⟨hnot, hsome⟩
  · refine someAt_iff.mpr ⟨thread, ⟨call, stage'⟩, ?_, hself⟩
    unfold arrive
    split
    · rw [hended] at hself
      cases hself
    · exact FinMap.get?_insert_self _ _ _
  · obtain ⟨thread', v, hother, hkind⟩ := someAt_iff.mp hsome
    have hne : thread ≠ thread' := by
      rintro rfl
      rw [hvisit] at hother
      cases hother
      exact absurd (hnot.symm.trans hkind) (by simp)
    exact someAt_iff.mpr ⟨thread', v, (visits_arrive_of_ne hne).trans hother, hkind⟩

/-- A thread has taken a step, and moved the phase. -/
theorem InPhase.arrive (h : c.InPhase t m₀ p) (hvisit : c.visits.get? thread = some ⟨call, stage⟩)
    (hmove : Phase.Moves thread p p') (hstate : (store.register.find t).state = p'.state)
    (hbacked : p'.Backed t m₀ store.backend)
    (hself : p'.Allows thread call stage' ∨
      ∃ result, stage' = .ended result ∧ p'.Explains (.participated call result))
    (hclear : p' = .aborted → p ≠ .aborted → c.someAt ParticipantStage.isCommitting = false)
    (hawaited : ∀ kind, p'.awaited? = some kind →
      kind stage' = true ∨ kind stage = false ∧ p.awaited? = some kind) :
    (c.arrive thread call stage' store).InPhase t m₀ p' where
  state := by
    rw [store_arrive]
    exact hstate
  backed := by
    rw [store_arrive]
    exact hbacked
  visits := by
    intro thread' v hthere
    by_cases hne : thread = thread'
    · subst hne
      rcases hself with hallowed | ⟨result, rfl, -⟩
      · rw [visits_arrive_self hthere]
        exact hallowed
      · rw [Crowd.arrive, FinMap.get?_erase, if_pos rfl] at hthere
        cases hthere
    · rw [visits_arrive_of_ne hne] at hthere
      exact (h.visits thread' v hthere).moves hmove (fun _ => hne) fun haborted hbefore =>
        someAt_eq_false_iff.mp (hclear haborted hbefore) thread' v hthere
  log := by
    intro e hin
    rcases mem_log_arrive hin with hold | ⟨result, rfl, rfl⟩
    · exact (h.log e hold).moves hmove
    · rcases hself with hallowed | ⟨result', heq, hexplained⟩
      · cases hallowed
      · cases heq
        exact hexplained
  awaited := by
    intro kind hkind
    have hended : ∀ result, kind (.ended result) = false := by
      intro result
      cases p' <;> cases hkind <;> rfl
    exact someAt_arrive hended hvisit
      ((hawaited kind hkind).imp_right fun ⟨hnot, hbefore⟩ => ⟨hnot, h.awaited kind hbefore⟩)

/-- A thread has taken a step that leaves the phase as it is, and nobody waited for it to move. -/
theorem InPhase.arrive_stays (h : c.InPhase t m₀ p)
    (hvisit : c.visits.get? thread = some ⟨call, stage⟩)
    (hquiet : stage.isPreparing = false ∧ stage.isNoting = false)
    (hstate : (store.register.find t).state = (c.store.register.find t).state)
    (hbacked : p.Backed t m₀ store.backend)
    (hself : p.Allows thread call stage' ∨
      ∃ result, stage' = .ended result ∧ p.Explains (.participated call result)) :
    (c.arrive thread call stage' store).InPhase t m₀ p := by
  refine h.arrive hvisit .stays (hstate.trans h.state) hbacked hself (fun haborted hnot => ?_) ?_
  · exact absurd haborted hnot
  · intro kind hkind
    refine Or.inr ⟨?_, hkind⟩
    cases p <;> cases hkind
    · exact hquiet.1
    · exact hquiet.2

/-- As long as the transaction is active nobody is committing it. -/
theorem InPhase.someAt_isCommitting (h : c.InPhase t m₀ .active) :
    c.someAt ParticipantStage.isCommitting = false := by
  refine someAt_eq_false_iff.mpr fun thread v hthere => ?_
  have hallowed := h.visits thread v hthere
  generalize v.stage = stage at hallowed
  generalize v.call = call at hallowed
  generalize hactive : Phase.active = p at hallowed
  cases hallowed with
  | prepares => cases hactive
  | commits hp => simp [← hactive] at hp
  | notes _ hp => simp [← hactive] at hp
  | _ => rfl

/-- Before it is committed, and while nobody is committing it, a transaction may be aborted. -/
theorem InPhase.moves_aborted (h : c.InPhase t m₀ p) (hstate : p.state ≠ .committed)
    (hnone : c.someAt ParticipantStage.isCommitting = false) (thread : Nat) :
    Phase.Moves thread p .aborted ∧ Phase.aborted.Backed t m₀ c.store.backend := by
  have hnobody : ∀ kind, p.awaited? = some kind →
      (∀ stage, kind stage = true → stage.isCommitting = true) → False := by
    intro kind hkind hcommitting
    obtain ⟨thread', v, hthere, hv⟩ := someAt_iff.mp (h.awaited kind hkind)
    exact absurd (hcommitting _ hv) (by simp [someAt_eq_false_iff.mp hnone thread' v hthere])
  cases p with
  | active => exact ⟨.abortsActive, h.backed.objects, h.backed.names⟩
  | prepared => exact ⟨.abortsPrepared, h.backed.1.objects, h.backed.1.names⟩
  | aborted => exact ⟨.stays, h.backed⟩
  | committed => exact absurd rfl hstate
  | preparing =>
      refine (hnobody _ rfl fun stage hstage => ?_).elim
      unfold ParticipantStage.isPreparing at hstage
      split at hstage
      · rfl
      · rfl
      · cases hstage
  | applied =>
      refine (hnobody _ rfl fun stage hstage => ?_).elim
      unfold ParticipantStage.isNoting at hstage
      split at hstage
      · rfl
      · cases hstage

theorem InPhase.rest {log : List CrowdEvent} (h : c.InPhase t m₀ p)
    (hstate : (store.register.find t).state = (c.store.register.find t).state)
    (hbacked : p.Backed t m₀ store.backend)
    (hlog : ∀ e ∈ log, e ∈ c.log ∨ e.isAbort = false ∧ e.isCommit = false) :
    ({ c with store, log } : Crowd ρo ρn).InPhase t m₀ p where
  state := hstate.trans h.state
  backed := hbacked
  visits := h.visits
  log := by
    intro e hin
    rcases hlog e hin with hold | ⟨hnoAbort, hnoCommit⟩
    · exact h.log e hold
    · exact ⟨fun habort => absurd (hnoAbort.symm.trans habort) (by simp),
        fun hcommit => absurd (hnoCommit.symm.trans hcommit) (by simp)⟩
  awaited := h.awaited

theorem InPhase.aborted {log : List CrowdEvent} (h : c.InPhase t m₀ p)
    (hstate : p.state ≠ .committed)
    (hnone : c.someAt ParticipantStage.isCommitting = false)
    (haborted : (store.register.find t).state = .aborted) (hsame : store.backend = c.store.backend)
    (hlog : ∀ e ∈ log, e ∈ c.log ∨ e.isCommit = false) :
    ({ c with store, log } : Crowd ρo ρn).InPhase t m₀ .aborted where
  state := haborted
  backed := hsame ▸ (h.moves_aborted hstate hnone 0).2
  visits := by
    intro thread v hthere
    have hmove := (h.moves_aborted hstate hnone thread).1
    refine (h.visits thread v hthere).moves hmove (fun hp => ?_)
      fun _ _ => someAt_eq_false_iff.mp hnone thread v hthere
    subst hp
    cases hmove
  log := by
    intro e hin
    rcases hlog e hin with hold | hnoCommit
    · exact (h.log e hold).moves (h.moves_aborted hstate hnone 0).1
    · exact ⟨fun _ => rfl, fun hcommit => absurd (hnoCommit.symm.trans hcommit) (by simp)⟩
  awaited := nofun

/-! ### The steps of a thread -/

section Steps

variable [Reporter ρo ObjectId] [Reporter ρn NameKey]

/-- A thread looks at the status. -/
theorem InPhase.enter (h : c.InPhase t m₀ p)
    (hvisit : c.visits.get? thread = some ⟨call, .enter call⟩)
    (hclear : c.collides t (.proceed thread) = false)
    (hstep : c.store.participantStep t (.enter call) = (stage', store)) :
    ∃ p', (c.arrive thread call stage' store).InPhase t m₀ p' := by
  obtain ⟨register, henter, hregister⟩ := c.store.enter_eq t call
  have hfind := hregister.self
  cases hlook : (call.look c.store.now (c.store.register.find t)).1 with
  | error e =>
      simp only [Store.participantStep, henter, hlook, Prod.mk.injEq] at hstep
      obtain ⟨rfl, rfl⟩ := hstep
      rcases Txn.look_error_cases hlook with ⟨hnot, hsame⟩ | ⟨-, hactive, hlate⟩
      · rw [hsame] at hfind
        exact ⟨p, h.arrive_stays hvisit ⟨rfl, rfl⟩ (congrArg Txn.state hfind) h.backed
          (Or.inl (.fails fun he => absurd (hnot.symm.trans he) (by simp)))⟩
      · rw [hlate] at hfind
        obtain rfl : p = .active := Phase.eq_active (h.state.symm.trans hactive)
        obtain ⟨hmove, hbacked⟩ := h.moves_aborted (by simp [Phase.state]) h.someAt_isCommitting thread
        exact ⟨.aborted, h.arrive hvisit hmove (congrArg Txn.state hfind) hbacked
          (Or.inl (.fails fun _ => rfl)) (fun _ _ => h.someAt_isCommitting)
          fun _ hkind => absurd hkind Phase.awaited?_aborted⟩
  | ok _ =>
      simp only [Store.participantStep, henter, hlook, Prod.mk.injEq] at hstep
      obtain ⟨rfl, rfl⟩ := hstep
      rcases Txn.look_ok_cases hlook with ⟨hcall, hactive, hlooked⟩ | ⟨rfl, hprepared, hsame⟩ |
        ⟨rfl, hbefore, haborted, -⟩
      · rw [hlooked] at hfind
        obtain rfl : p = .active := Phase.eq_active (h.state.symm.trans hactive)
        refine ⟨.preparing thread, h.arrive hvisit .begins (congrArg Txn.state hfind) h.backed
          (Or.inl (.prepares hcall)) (fun haborted => absurd haborted (by simp)) ?_⟩
        rintro kind ⟨⟩
        rcases hcall with rfl | rfl <;> exact Or.inl rfl
      · have hpasses : (c.store.register.find t).checkPrepared = .ok () := hlook
        have hnobody : c.someAt ParticipantStage.isPreparing = false := by
          simpa [collides, hvisit, hpasses, Except.isOk, Except.toBool] using hclear
        have hp : p = .prepared ∨ p = .applied ∨ p = .committed := by
          have hstate := h.state.symm.trans hprepared
          cases p with
          | prepared => exact Or.inl rfl
          | applied => exact Or.inr (Or.inl rfl)
          | preparing => exact absurd (h.awaited _ rfl) (by simp [hnobody])
          | _ => cases hstate
        rw [hsame] at hfind
        exact ⟨p, h.arrive_stays hvisit ⟨rfl, rfl⟩ (congrArg Txn.state hfind) h.backed
          (Or.inl (.commits hp))⟩
      · have hpasses : (c.store.register.find t).beginParticipantAbort.1 = .ok () := hlook
        have hnobody : c.someAt ParticipantStage.isCommitting = false := by
          simpa [collides, hvisit, hpasses, Except.isOk, Except.toBool] using hclear
        obtain ⟨hmove, hbacked⟩ := h.moves_aborted (h.state ▸ hbefore) hnobody thread
        exact ⟨.aborted, h.arrive hvisit hmove ((congrArg Txn.state hfind).trans haborted) hbacked
          (Or.inl .aborts) (fun _ _ => hnobody) fun _ hkind => absurd hkind Phase.awaited?_aborted⟩

/-- What a call of the backend comes to is listed, and its failures ask for no abort. -/
theorem called_of_participantStep {s store : Store ρo ρn Memory}
    (h : s.participantStep t (.backend call) = (stage', store)) :
    ∃ backend, store = { s with backend } ∧ Called t s.backend call stage' backend ∧
      ∀ e, stage' = .failing e → e.isAbort = false := by
  have hstep : s.callBackend t call = (stage', store) := h
  obtain ⟨backend, hbackend⟩ := s.callBackend_backend t call
  rw [hstep] at hbackend
  obtain rfl : store = { s with backend } := hbackend
  refine ⟨backend, rfl, called_of_callBackend hstep, ?_⟩
  rintro e rfl
  by_cases habort : call = .abort
  · subst habort
    cases hstep
  · obtain ⟨backend', ⟨e', he', hfails⟩ | ⟨-, hprepares⟩ | hcommits⟩ :=
      s.callBackend_cases t habort
    · rw [hfails] at hstep
      cases hstep
      exact StoreError.isAbort_of_txn?_eq_none he'
    · rw [hprepares] at hstep
      cases hstep
    · rw [hcommits] at hstep
      cases hstep

/-- A thread that has been let in to prepare the writes calls the backend. -/
theorem InPhase.prepare (h : c.InPhase t m₀ (.preparing thread))
    (hvisit : c.visits.get? thread = some ⟨call, .backend call⟩)
    (hcall : call = .prepare ∨ call = .prepareAndCommit)
    (hstep : c.store.participantStep t (.backend call) = (stage', store)) :
    ∃ p', (c.arrive thread call stage' store).InPhase t m₀ p' := by
  obtain ⟨backend, rfl, hcalled, hfailing⟩ := called_of_participantStep hstep
  have hawaits : Memory.Awaits t m₀ c.store.backend := h.backed
  cases hcalled with
  | refused hshut =>
      have hbacked : Phase.prepared.Backed t m₀ c.store.backend :=
        ⟨hawaits, fun hopen => absurd (hopen.symm.trans hshut) (by simp)⟩
      exact ⟨.prepared, h.arrive hvisit .prepares h.state hbacked
        (Or.inl (.fails fun he => absurd ((hfailing _ rfl).symm.trans he) (by simp))) nofun nofun⟩
  | commits hopen hnot hnames hgone _ _ hobjects =>
      obtain ⟨hsees, hseesNames⟩ := hawaits.seen hopen
      have hbacked : Phase.applied.Backed t m₀ backend :=
        ⟨hgone, fun oid => (hobjects oid).trans (hsees oid),
          fun name => (hnames name).trans (hseesNames name)⟩
      refine ⟨.applied, h.arrive hvisit .appliesAtOnce h.state hbacked
        (Or.inl (.notes hnot (Or.inl rfl))) nofun ?_⟩
      rintro kind ⟨⟩
      exact Or.inl rfl
  | prepares =>
      have hbacked : Phase.prepared.Backed t m₀
          (c.store.backend.write t fun w => { w with prepared := true }) :=
        ⟨hawaits.prepare, fun _ => ⟨_, FinMap.get?_insert_self _ _ _, rfl⟩⟩
      exact ⟨.prepared, h.arrive hvisit .prepares h.state hbacked
        (Or.inr ⟨_, rfl, nofun, nofun⟩) nofun nofun⟩
  | loses => simp at hcall
  | aborts => simp at hcall

/-- A thread that has been let in to commit prepared writes calls the backend. -/
theorem InPhase.commit (h : c.InPhase t m₀ p)
    (hvisit : c.visits.get? thread = some ⟨.commit, .backend .commit⟩)
    (hp : p = .prepared ∨ p = .applied ∨ p = .committed)
    (hstep : c.store.participantStep t (.backend .commit) = (stage', store)) :
    ∃ p', (c.arrive thread .commit stage' store).InPhase t m₀ p' := by
  obtain ⟨backend, rfl, hcalled, hfailing⟩ := called_of_participantStep hstep
  cases hcalled with
  | refused hshut =>
      exact ⟨p, h.arrive_stays hvisit ⟨rfl, rfl⟩ rfl h.backed
        (Or.inl (.fails fun he => absurd ((hfailing _ rfl).symm.trans he) (by simp)))⟩
  | commits hopen hnot hnames hgone _ _ hobjects =>
      rcases hp with rfl | hp
      · obtain ⟨hsees, hseesNames⟩ := h.backed.1.seen hopen
        have hbacked : Phase.applied.Backed t m₀ backend :=
          ⟨hgone, fun oid => (hobjects oid).trans (hsees oid),
            fun name => (hnames name).trans (hseesNames name)⟩
        refine ⟨.applied, h.arrive hvisit .applies h.state hbacked
          (Or.inl (.notes hnot (Or.inl rfl))) nofun ?_⟩
        rintro kind ⟨⟩
        exact Or.inl rfl
      · -- The writes have been carried out before, and there is nothing left of them.
        have hbacked : p.Backed t m₀ backend := by
          rcases hp with rfl | rfl
          · exact Memory.Carried.again h.backed hgone hobjects hnames
          · exact Memory.Carried.again h.backed hgone hobjects hnames
        exact ⟨p, h.arrive_stays hvisit ⟨rfl, rfl⟩ rfl hbacked (Or.inl (.notes hnot hp))⟩
  | @loses e w hopen hpending hunprepared =>
      exfalso
      rcases hp with rfl | hp
      · obtain ⟨w', hw', hprepared⟩ := h.backed.2 hopen
        rw [hpending] at hw'
        cases hw'
        exact absurd (hunprepared.symm.trans hprepared) (by simp)
      · have hgone : c.store.backend.pending.get? t = none := by
          rcases hp with rfl | rfl
          · exact h.backed.gone
          · exact h.backed.gone
        rw [hgone] at hpending
        cases hpending

/-- A thread that has been let in to abort the transaction calls the backend. -/
theorem InPhase.abort (h : c.InPhase t m₀ .aborted)
    (hvisit : c.visits.get? thread = some ⟨.abort, .backend .abort⟩)
    (hstep : c.store.participantStep t (.backend .abort) = (stage', store)) :
    (c.arrive thread .abort stage' store).InPhase t m₀ .aborted := by
  obtain ⟨backend, rfl, hcalled, hfailing⟩ := called_of_participantStep hstep
  cases hcalled with
  | refused =>
      exact h.arrive_stays hvisit ⟨rfl, rfl⟩ rfl h.backed
        (Or.inl (.fails fun he => absurd ((hfailing _ rfl).symm.trans he) (by simp)))
  | commits _ hnot => exact absurd rfl hnot
  | aborts =>
      have hself : Phase.Allows (Phase.ended .abort) thread .abort (.releaseObjects (.ok .done)) :=
        .releasesObjects
      exact h.arrive_stays hvisit ⟨rfl, rfl⟩ rfl h.backed (Or.inl hself)

/-- A thread notes the commit. -/
theorem InPhase.note {reply : Reply} (h : c.InPhase t m₀ p)
    (hvisit : c.visits.get? thread = some ⟨call, .committed reply⟩) (hcall : call ≠ .abort)
    (hp : p = .applied ∨ p = .committed)
    (hstep : c.store.participantStep t (.committed reply) = (stage', store)) :
    (c.arrive thread call stage' store).InPhase t m₀ .committed := by
  have hmove : Phase.Moves thread p .committed := by
    rcases hp with rfl | rfl
    · exact .notes
    · exact .stays
  have hbacked : Phase.committed.Backed t m₀ c.store.backend := by
    rcases hp with rfl | rfl
    · exact h.backed
    · exact h.backed
  have hended : Phase.ended call = .committed := by
    rcases Phase.ended_cases call with ⟨habort, -⟩ | ⟨-, hended⟩
    · exact absurd habort hcall
    · exact hended
  have hnoted : (c.store.register.update t fun txn => ((), txn.completeCommit)).2.find t =
      (c.store.register.find t).completeCommit := Register.find_update_self
  cases hstep
  exact h.arrive hvisit hmove (congrArg Txn.state hnoted) hbacked
    (Or.inl (hended ▸ .releasesObjects)) nofun nofun

/-- **A step of a thread that does not collide leads to a phase.** -/
theorem InPhase.proceed (h : c.InPhase t m₀ p)
    (hclear : c.collides t (.proceed thread) = false) :
    ∃ p', (c.perform t (.proceed thread)).InPhase t m₀ p' := by
  simp only [perform]
  split
  · exact ⟨p, h⟩
  · rename_i v hvisit
    obtain ⟨call, stage⟩ := v
    have hallowed : p.Allows thread call stage := h.visits thread _ hvisit
    rcases hstep : c.store.participantStep t stage with ⟨stage', store⟩
    cases hallowed with
    | enters => exact h.enter hvisit hclear hstep
    | prepares hcall => exact h.prepare hvisit hcall hstep
    | commits hp => exact h.commit hvisit hp hstep
    | aborts => exact ⟨.aborted, h.abort hvisit hstep⟩
    | notes hcall hp => exact ⟨.committed, h.note hvisit hcall hp hstep⟩
    | releasesObjects =>
        cases hstep
        exact ⟨_, h.arrive_stays hvisit ⟨rfl, rfl⟩ rfl h.backed (Or.inl .releasesNames)⟩
    | releasesNames =>
        cases hstep
        refine ⟨_, h.arrive_stays hvisit ⟨rfl, rfl⟩ rfl h.backed (Or.inr ⟨_, rfl, ?_⟩)⟩
        cases call <;> simp [Phase.Explains, Phase.ended, CrowdEvent.isAbort, CrowdEvent.isCommit]
    | @fails _ _ _ e he =>
        cases hstep
        have hsame : ((c.store.noteFailure t e).register.find t) = c.store.register.find t := by
          cases habort : e.isAbort with
          | true =>
              refine Register.find_noteFailure_of_not_isOpen (Register.isOpen_of_aborted ?_)
              rw [Register.stateOf, h.state, he habort]
              rfl
          | false => exact congrArg (·.find t) (Register.noteFailure_of_not_isAbort habort)
        refine ⟨p, h.arrive_stays hvisit ⟨rfl, rfl⟩ (congrArg Txn.state hsame) h.backed
          (Or.inr ⟨_, rfl, ?_⟩)⟩
        cases call <;> simp [Phase.Explains, CrowdEvent.isAbort, CrowdEvent.isCommit]

/-! ### What else may happen -/

theorem InPhase.cancel (h : c.InPhase t m₀ p) (cause : AbortCause)
    (hclear : c.collides t (.cancel cause) = false) :
    ∃ p', (c.perform t (.cancel cause)).InPhase t m₀ p' := by
  have hfind : (c.store.register.update t (·.abort cause)).2.find t =
      ((c.store.register.find t).abort cause).2 := Register.find_update_self
  have hmoved : (c.store.register.update t (·.abort cause)).1 =
      (c.store.register.find t).isOpen := Txn.abort_fst cause
  have hlog : ∀ e ∈ c.log ++ [.cancelled (c.store.register.find t).isOpen], e ∈ c.log ∨
      e = .cancelled (c.store.register.find t).isOpen :=
    fun e hin => (List.mem_append.mp hin).imp_right List.mem_singleton.mp
  simp only [perform, Store.updateTxn, hmoved]
  rcases (c.store.register.find t).abort_cases cause with ⟨hsame, hclosed⟩ | ⟨hopen, haborted⟩
  · rw [hsame] at hfind
    refine ⟨p, h.rest (congrArg Txn.state hfind) h.backed fun e hin => ?_⟩
    rcases hlog e hin with hold | rfl
    · exact Or.inl hold
    · exact Or.inr ⟨hclosed, rfl⟩
  · have hnone : c.someAt ParticipantStage.isCommitting = false := by
      simpa [collides, hopen] using hclear
    have hstate : p.state ≠ .committed := by
      intro hcommitted
      have hopen' := Txn.isOpen_iff.mp hopen
      rw [h.state, hcommitted] at hopen'
      simp at hopen'
    rw [haborted] at hfind
    refine ⟨.aborted, h.aborted hstate hnone (congrArg Txn.state hfind) rfl fun e hin => ?_⟩
    rcases hlog e hin with hold | rfl
    · exact Or.inl hold
    · exact Or.inr rfl

theorem InPhase.wound (h : c.InPhase t m₀ p) (reason : WoundReason TxnId) :
    ∃ p', (c.perform t (.wound reason)).InPhase t m₀ p' := by
  have hfind : (c.store.register.update t (·.wound reason)).2.find t =
      ((c.store.register.find t).wound reason).2 := Register.find_update_self
  rcases (c.store.register.find t).wound_cases reason with hsame | ⟨hactive, cause, haborted⟩
  · rw [hsame] at hfind
    exact ⟨p, h.rest (congrArg Txn.state hfind) h.backed fun _ => Or.inl⟩
  · obtain rfl : p = .active := Phase.eq_active (h.state.symm.trans hactive)
    rw [haborted] at hfind
    exact ⟨.aborted, h.aborted nofun h.someAt_isCommitting (congrArg Txn.state hfind) rfl
      fun _ => Or.inl⟩

theorem InPhase.begins (h : c.InPhase t m₀ p) (thread : Nat) (call : ParticipantCall) :
    (c.perform t (.call thread call)).InPhase t m₀ p := by
  simp only [perform]
  split
  · exact h
  · rename_i hfree
    refine ⟨h.state, h.backed, ?_, h.log, ?_⟩
    · intro thread' v hthere
      rw [FinMap.get?_insert] at hthere
      split at hthere
      · cases hthere
        exact .enters
      · exact h.visits thread' v hthere
    · intro kind hkind
      obtain ⟨thread', v, hthere, hv⟩ := someAt_iff.mp (h.awaited kind hkind)
      have hne : thread ≠ thread' := by
        rintro rfl
        exact hfree (by simp [FinMap.contains, hthere])
      refine someAt_iff.mpr ⟨thread', v, ?_, hv⟩
      exact ((FinMap.get?_insert _ _ _ _).trans (if_neg hne)).trans hthere

/-- **Every action that does not collide leads to a phase.** -/
theorem InPhase.perform (h : c.InPhase t m₀ p) (a : CrowdAction) (hclear : c.collides t a = false) :
    ∃ p', (c.perform t a).InPhase t m₀ p' := by
  cases a with
  | call thread call => exact ⟨p, h.begins thread call⟩
  | proceed thread => exact h.proceed hclear
  | cancel cause => exact h.cancel cause hclear
  | wound reason => exact h.wound reason
  | tick n => exact ⟨p, h.rest rfl h.backed fun _ => Or.inl⟩
  | shutdown =>
      refine ⟨p, ?_⟩
      simp only [Crowd.perform, Store.shutdown]
      split
      · exact h
      · have hbacked : p.Backed t m₀ (Memory.perform .shutdown ⟨0⟩ c.store.backend).2 := by
          rw [Memory.perform_shutdown]
          exact h.backed.shutdown
        exact h.rest rfl hbacked fun _ => Or.inl

/-- **Both ends are final.**  Let several threads call the participant on an active transaction,
and let the program abort it at any moment, but let no action collide: the transaction is not aborted
while a commit of it is on its way, and no commit is let in while its writes have yet to be prepared.
Then whoever has been told that the transaction is aborted may rely on it, for it is not committed
and nothing of it is; and whoever has been told that it is committed may rely on that, for what it
saw, with all that it had written, is what is committed. -/
theorem finality (s₀ : Store ρo ρn Memory) (t : TxnId)
    (hactive : (s₀.register.find t).state = .active) (actions : List CrowdAction)
    (hclear : (new s₀).isClear t actions = true) :
    let c := (new s₀).run t actions
    ((∃ e ∈ c.log, e.isAbort = true) →
      (c.store.register.find t).state = .aborted ∧
        c.store.backend.objects = s₀.backend.objects ∧
        c.store.backend.names = s₀.backend.names) ∧
    ((∃ e ∈ c.log, e.isCommit = true) →
      (c.store.register.find t).state = .committed ∧
        (∀ oid, c.store.backend.objects.get? oid = s₀.backend.object? t oid) ∧
        ∀ name, c.store.backend.names.get? name = s₀.backend.binding? t name) := by
  intro c
  have hstart : (new s₀).InPhase t s₀.backend .active :=
    { state := hactive
      backed := ⟨rfl, rfl, fun _ => ⟨fun _ => rfl, fun _ => rfl⟩⟩
      visits := nofun
      log := nofun
      awaited := nofun }
  obtain ⟨p, hphase⟩ : ∃ p, c.InPhase t s₀.backend p :=
    run_induction (P := fun c => ∃ p, c.InPhase t s₀.backend p) ⟨_, hstart⟩
      (fun c a ⟨_, h⟩ hfree => h.perform a hfree) actions hclear
  refine ⟨?_, ?_⟩
  · rintro ⟨e, hin, habort⟩
    obtain rfl := (hphase.log e hin).1 habort
    exact ⟨hphase.state, hphase.backed.1, hphase.backed.2⟩
  · rintro ⟨e, hin, hcommit⟩
    obtain rfl := (hphase.log e hin).2 hcommit
    exact ⟨hphase.state, hphase.backed.objects, hphase.backed.names⟩

end Steps

/-- A store with one transaction, which has made an object. -/
def oneCreation : LockingStore Memory :=
  let s : LockingStore Memory := .new (.named Store.objectsSource 1) (.named Store.namesSource 1) .empty
  ((s.begin ⟨1⟩ ⟨1, 0⟩ 9).act ⟨1⟩ .create).2

/-- Once a thread has prepared the transaction two others commit it side by side, and the program
comes too late. -/
def sideBySide : List CrowdAction :=
  [.call 0 .prepare, .proceed 0, .proceed 0, .call 1 .commit, .call 2 .commit,
    .proceed 1, .proceed 2, .proceed 1, .proceed 2, .proceed 1, .cancel (.requested "too late"),
    .proceed 2, .proceed 1, .proceed 1, .proceed 2, .proceed 2]

theorem finality_sideBySide :
    let c := (new oneCreation).run ⟨1⟩ sideBySide
    (c.store.register.find ⟨1⟩).state = .committed ∧ c.store.backend.objects.get? ⟨1⟩ = some [] := by
  have hlog : ((new oneCreation).run ⟨1⟩ sideBySide).log =
      [.participated .prepare (.ok (.readOnly false)), .cancelled false,
        .participated .commit (.ok .done), .participated .commit (.ok .done)] := rfl
  have htold : .participated .commit (.ok .done) ∈ ((new oneCreation).run ⟨1⟩ sideBySide).log := by
    rw [hlog]
    simp
  have hclear : (new oneCreation).isClear ⟨1⟩ sideBySide = true := rfl
  obtain ⟨-, hcommit⟩ := finality oneCreation ⟨1⟩ rfl sideBySide hclear
  obtain ⟨hstate, hobjects, -⟩ := hcommit ⟨_, htold, rfl⟩
  exact ⟨hstate, hobjects ⟨1⟩⟩

/-! ### Ends that are undone -/

/-- The program aborts a transaction that a thread has been let in to commit. -/
def overtaken : List CrowdAction :=
  [.call 0 .prepareAndCommit, .proceed 0, .cancel (.requested "enough"),
    .proceed 0, .proceed 0, .proceed 0, .proceed 0]

/-- So does another thread. -/
def crossed : List CrowdAction :=
  [.call 0 .prepareAndCommit, .proceed 0,
    .call 1 .abort, .proceed 1, .proceed 1, .proceed 1, .proceed 1,
    .proceed 0, .proceed 0, .proceed 0, .proceed 0]

/-- Two threads are let in to commit writes that a third one has yet to prepare.  The first of them
fails, and the second one finds nothing left. -/
def hurried : List CrowdAction :=
  [.call 0 .prepare, .proceed 0, .call 1 .commit, .proceed 1, .proceed 1,
    .call 2 .commit, .proceed 2, .proceed 2, .proceed 2, .proceed 2, .proceed 2]

/-- Ends can be undone: the program is told that the transaction is aborted, and it is committed with
its writes; an abort and a commit both succeed; and a commit succeeds that has lost the writes. -/
theorem exists_end_undone :
    let c := new oneCreation
    (c.store.register.find ⟨1⟩).state = .active ∧ c.store.backend.object? ⟨1⟩ ⟨1⟩ = some [] ∧
      ((c.run ⟨1⟩ overtaken).store.register.find ⟨1⟩).state = .committed ∧
      (c.run ⟨1⟩ overtaken).store.backend.objects.get? ⟨1⟩ = some [] ∧
      (∃ e ∈ (c.run ⟨1⟩ overtaken).log, e.isAbort = true) ∧
      ((c.run ⟨1⟩ crossed).store.register.find ⟨1⟩).state = .committed ∧
      (c.run ⟨1⟩ crossed).store.backend.objects.get? ⟨1⟩ = none ∧
      (∃ e ∈ (c.run ⟨1⟩ crossed).log, e.isAbort = true) ∧
      (∃ e ∈ (c.run ⟨1⟩ crossed).log, e.isCommit = true) ∧
      (c.run ⟨1⟩ hurried).store.backend.objects.get? ⟨1⟩ = none ∧
      ∃ e ∈ (c.run ⟨1⟩ hurried).log, e.isCommit = true :=
  ⟨rfl, rfl, rfl, rfl, ⟨.cancelled true, List.mem_of_getElem? (i := 0) rfl, rfl⟩, rfl, rfl,
    ⟨.participated .abort (.ok .done), List.mem_of_getElem? (i := 0) rfl, rfl⟩,
    ⟨.participated .prepareAndCommit (.ok .done), List.mem_of_getElem? (i := 1) rfl, rfl⟩, rfl,
    ⟨.participated .commit (.ok .done), List.mem_of_getElem? (i := 0) rfl, rfl⟩⟩

end Crowd

end ObjectStore
