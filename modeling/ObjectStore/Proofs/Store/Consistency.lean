/-
The call of a transaction, its status, its writes and the log agree with each other.

A transaction that is prepared or committed goes on with no operation, so that what it has written
when it prepares is what it commits.  It is committed once, and its status follows.
-/
import ObjectStore.Proofs.Store.Beside
import ObjectStore.Proofs.Store.Retention

namespace ObjectStore

namespace Traffic

variable {w w' : LockingTraffic Memory} {t : TxnId}

/-- What is true of a transaction on its way to a commit. -/
structure Consistent (w : LockingTraffic Memory) (t : TxnId) : Prop where
  /-- An operation of a transaction that is prepared or committed is about to be refused. -/
  operating : ∀ op stage, w.calls.get? t = some (.operation op stage) →
    w.store.register.stateOf t = .active ∨ w.store.register.stateOf t = .aborted ∨
      ∃ e, stage = .failing e ∧ ∀ name, e ≠ .nameNotBound name
  /-- Nobody is committed at the backend but who is prepared. -/
  calling : ∀ call called, w.calls.get? t = some (.participation call (.backend called)) →
    called = .abort ∨ w.store.register.stateOf t = .prepared
  /-- The status follows the backend. -/
  following : ∀ call reply, w.calls.get? t = some (.participation call (.committed reply)) →
    t ∈ commits w.log ∧ w.store.register.stateOf t = .prepared
  /-- The backend knows who is prepared, once it has been called. -/
  flagged : w.store.register.stateOf t = .prepared → w.store.backend.isShutDown = false →
    (∃ call, w.calls.get? t = some (.participation call (.backend .prepare)) ∨
        w.calls.get? t = some (.participation call (.backend .prepareAndCommit)) ∨
          ∃ reply, w.calls.get? t = some (.participation call (.committed reply))) ∨
      ∃ writes, w.store.backend.pending.get? t = some writes ∧ writes.prepared = true
  committed : t ∈ commits w.log → w.store.register.stateOf t = .committed ∨
    ∃ call reply, w.calls.get? t = some (.participation call (.committed reply))
  logged : w.store.register.stateOf t = .committed → t ∈ commits w.log

namespace Consistent

theorem new (shards : Nat) (t : TxnId) : Consistent (Traffic.new shards Memory.empty) t := by
  have hstate : (Traffic.new shards Memory.empty).store.register.stateOf t = .aborted :=
    Register.stateOf_of_unknown rfl
  exact
    { operating := fun _ _ h => absurd h (by simp [Traffic.new])
      calling := fun _ _ h => absurd h (by simp [Traffic.new])
      following := fun _ _ h => absurd h (by simp [Traffic.new])
      flagged := fun h => absurd h (by simp [hstate])
      committed := fun h => absurd h List.not_mem_nil
      logged := fun h => absurd h (by simp [hstate]) }

theorem beside (h : Consistent w t) (hbeside : Beside w w' t) : Consistent w' t where
  operating := by
    intro op stage hcall
    rw [hbeside.call] at hcall
    rcases hbeside.status with hsame | ⟨-, -, haborted⟩
    · rw [Register.stateOf, hsame]
      exact h.operating op stage hcall
    · exact Or.inr (Or.inl haborted)
  calling := by
    intro call called hcall
    rw [hbeside.call] at hcall
    rcases hbeside.status with hsame | ⟨-, hwhen, -⟩
    · rw [Register.stateOf, hsame]
      exact h.calling call called hcall
    · refine (h.calling call called hcall).imp_right fun hprepared => ?_
      simp [isParticipating, hcall, hprepared] at hwhen
  following := by
    intro call reply hcall
    rw [hbeside.call] at hcall
    obtain ⟨hin, hprepared⟩ := h.following call reply hcall
    refine ⟨hbeside.mem_commits.mpr hin, ?_⟩
    rcases hbeside.status with hsame | ⟨-, hwhen, -⟩
    · rwa [Register.stateOf, hsame]
    · simp [isParticipating, hcall, hprepared] at hwhen
  flagged := by
    intro hprepared hopen
    have hsame := hbeside.find_of_isOpen (Register.isOpen_iff.mpr (Or.inr hprepared))
    rcases hbeside.writes with ⟨hwrites, hshut⟩ | ⟨hshut, -⟩
    · rw [hbeside.call, hwrites]
      rw [hshut] at hopen
      rw [Register.stateOf, hsame] at hprepared
      exact h.flagged hprepared hopen
    · rw [hshut] at hopen
      exact absurd hopen (by simp)
  committed := by
    intro hin
    rw [hbeside.call]
    refine (h.committed (hbeside.mem_commits.mp hin)).imp_left fun hcommitted => ?_
    rcases hbeside.status with hsame | ⟨hopen, -⟩
    · rwa [Register.stateOf, hsame]
    · rw [Register.isOpen_of_committed hcommitted] at hopen
      exact absurd hopen (by simp)
  logged := by
    intro hcommitted
    rcases hbeside.status with hsame | ⟨-, -, haborted⟩
    · rw [Register.stateOf, hsame] at hcommitted
      exact hbeside.mem_commits.mpr (h.logged hcommitted)
    · rw [haborted] at hcommitted
      exact absurd hcommitted (by simp)

theorem goesOn (h : Consistent w t) (hafter : w.store.register.After w'.store.register)
    (hstate : w'.store.register.stateOf t = w.store.register.stateOf t ∨
      w'.store.register.stateOf t = .aborted)
    (hlog : commits w'.log = commits w.log)
    (hbefore : ∀ call reply, w.calls.get? t ≠ some (.participation call (.committed reply)))
    (hoperating : ∀ op stage, w'.calls.get? t = some (.operation op stage) →
      w'.store.register.stateOf t = .active ∨ w'.store.register.stateOf t = .aborted ∨
        ∃ e, stage = .failing e ∧ ∀ name, e ≠ .nameNotBound name)
    (hcalling : ∀ call called, w'.calls.get? t = some (.participation call (.backend called)) →
      called = .abort ∨ w'.store.register.stateOf t = .prepared)
    (hcall : ∀ call reply, w'.calls.get? t ≠ some (.participation call (.committed reply)))
    (hflagged : w'.store.register.stateOf t = .prepared → w'.store.backend.isShutDown = false →
      ∃ writes, w'.store.backend.pending.get? t = some writes ∧ writes.prepared = true) :
    Consistent w' t where
  operating := hoperating
  calling := hcalling
  following := fun call reply hc => absurd hc (hcall call reply)
  flagged := fun hprepared hopen => Or.inr (hflagged hprepared hopen)
  committed := by
    intro hin
    rw [hlog] at hin
    rcases h.committed hin with hcommitted | ⟨call, reply, hc⟩
    · exact Or.inl (hafter.committed t hcommitted)
    · exact absurd hc (hbefore call reply)
  logged := by
    intro hcommitted
    rw [hlog]
    rcases hstate with hsame | haborted
    · exact h.logged (hsame.symm.trans hcommitted)
    · rw [haborted] at hcommitted
      exact absurd hcommitted (by simp)

/-- Whoever is prepared and makes no call of the backend is known there to be prepared. -/
theorem isFlagged (h : Consistent w t)
    (hquiet : ∀ call called, w.calls.get? t = some (.participation call (.backend called)) →
      called ≠ .prepare ∧ called ≠ .prepareAndCommit)
    (hbefore : ∀ call reply, w.calls.get? t ≠ some (.participation call (.committed reply)))
    (hprepared : w.store.register.stateOf t = .prepared)
    (hopen : w.store.backend.isShutDown = false) :
    ∃ writes, w.store.backend.pending.get? t = some writes ∧ writes.prepared = true := by
  refine (h.flagged hprepared hopen).resolve_left ?_
  rintro ⟨call, hc | hc | ⟨reply, hc⟩⟩
  · exact (hquiet call _ hc).1 rfl
  · exact (hquiet call _ hc).2 rfl
  · exact hbefore call reply hc

theorem stateOf_of_wounded {r r' : Register} (h : r.Wounded r') (t : TxnId) :
    r'.stateOf t = r.stateOf t ∨ r'.stateOf t = .aborted :=
  (h.status t).imp (congrArg Txn.state) And.right

theorem stateOf_noteFailure (r : Register) (t : TxnId) (e : StoreError) :
    (r.noteFailure t e).stateOf t = r.stateOf t ∨ (r.noteFailure t e).stateOf t = .aborted := by
  cases e with
  | aborted txn cause =>
      have hfind : (r.noteFailure t (.aborted txn cause)).find t = ((r.find t).abort cause).2 :=
        Register.find_update_self (f := (·.abort cause))
      rw [Register.stateOf, hfind]
      rcases (r.find t).abort_cases cause with ⟨hsame, -⟩ | ⟨-, haborted⟩
      · exact Or.inl (congrArg Txn.state hsame)
      · exact Or.inr (congrArg Txn.state haborted)
  | _ => exact Or.inl rfl

theorem was_prepared {r r' : Register} {t : TxnId}
    (hstate : r'.stateOf t = r.stateOf t ∨ r'.stateOf t = .aborted)
    (hprepared : r'.stateOf t = .prepared) : r.stateOf t = .prepared := by
  rcases hstate with hsame | haborted
  · exact hsame.symm.trans hprepared
  · rw [haborted] at hprepared
    exact absurd hprepared (by simp)

theorem operation (h : Consistent w t) {op : Operation} {stage stage' : Stage}
    {store : LockingStore Memory} (hcall : w.calls.get? t = some (.operation op stage))
    (hstep : OperationStep w.store t stage stage' store) :
    Consistent
      { store
        calls := w.calls.change t (Call.ofStage op stage')
        log := w.log ++ Event.ofStep t op stage stage' } t := by
  have hwas := h.operating op stage hcall
  have hflagged := h.isFlagged (fun _ _ hc => absurd (hcall.symm.trans hc) (by simp))
    (fun _ _ hc => absurd (hcall.symm.trans hc) (by simp))
  have hstate : store.register.stateOf t = w.store.register.stateOf t ∨
      store.register.stateOf t = .aborted := by
    cases hstep with
    | reportsObject hturn => exact stateOf_of_wounded (Register.wounded_turn hturn) t
    | reportsName hturn => exact stateOf_of_wounded (Register.wounded_turn hturn) t
    | wakes => exact Or.inl rfl
    | acts => exact Or.inl rfl
    | fails => exact stateOf_noteFailure _ _ _
  -- Whoever takes a step before the end is active or has been aborted.
  have hgoing : (∀ e, stage ≠ .failing e) →
      store.register.stateOf t = .active ∨ store.register.stateOf t = .aborted := by
    intro hno
    rcases hwas with hactive | haborted | ⟨e, he, -⟩
    · exact hstate.imp_left fun hsame => hsame.trans hactive
    · exact Or.inr (hstate.elim (fun hsame => hsame.trans haborted) id)
    · exact absurd he (hno e)
  refine h.goesOn (after_of_operationStep hstep) hstate (by simp [commits_append])
    (fun _ _ hc => absurd (hcall.symm.trans hc) (by simp)) ?_ ?_ ?_ ?_
  · intro op' stage'' hcall'
    rw [FinMap.get?_change_self] at hcall'
    cases hstep with
    | fails => cases hcall'
    | reportsObject => exact (hgoing (by simp)).imp_right Or.inl
    | reportsName => exact (hgoing (by simp)).imp_right Or.inl
    | wakes => exact (hgoing (by simp)).imp_right Or.inl
    | acts => exact (hgoing (by simp)).imp_right Or.inl
  · intro call called hcall'
    rw [FinMap.get?_change_self] at hcall'
    cases stage' <;> cases hcall'
  · intro call reply hcall'
    rw [FinMap.get?_change_self] at hcall'
    cases stage' <;> cases hcall'
  · intro hprepared hopen
    cases hstep with
    | fails => exact hflagged (was_prepared hstate hprepared) hopen
    | _ =>
        rcases hgoing (by simp) with hactive | haborted
        · rw [hactive] at hprepared
          exact absurd hprepared (by simp)
        · rw [haborted] at hprepared
          exact absurd hprepared (by simp)

/-- A participant call that has come to a stage without a call of the backend. -/
theorem rests {call : ParticipantCall} {stage stage' : ParticipantStage}
    {store : LockingStore Memory} (h : Consistent w t)
    (hcall : w.calls.get? t = some (.participation call stage))
    (hafter : w.store.register.After store.register)
    (hstate : store.register.stateOf t = w.store.register.stateOf t ∨
      store.register.stateOf t = .aborted)
    (hlog : commits (Event.ofParticipantStep t call stage stage') = [])
    (hbefore : ∀ reply, stage ≠ .committed reply)
    (hstage' : ∀ reply, stage' ≠ .committed reply)
    (hcalling : ∀ called, stage' = .backend called →
      called = .abort ∨ store.register.stateOf t = .prepared)
    (hflagged : store.register.stateOf t = .prepared → store.backend.isShutDown = false →
      ∃ writes, store.backend.pending.get? t = some writes ∧ writes.prepared = true) :
    Consistent
      { store
        calls := w.calls.change t (Call.ofParticipantStage call stage')
        log := w.log ++ Event.ofParticipantStep t call stage stage' } t := by
  have hleft : (w.calls.change t (Call.ofParticipantStage call stage')).get? t =
      Call.ofParticipantStage call stage' :=
    FinMap.get?_change_self _ _ _
  refine h.goesOn hafter hstate (by simp [commits_append, hlog]) ?_ ?_ ?_ ?_ hflagged
  · intro call' reply hc
    cases hcall.symm.trans hc
    exact hbefore reply rfl
  · intro op stage'' hc
    have hc' := hleft.symm.trans hc
    cases stage' <;> cases hc'
  · intro call' called hc
    have hc' := hleft.symm.trans hc
    cases stage' <;> cases hc'
    exact hcalling called rfl
  · intro call' reply hc
    have hc' := hleft.symm.trans hc
    cases stage' <;> cases hc'
    exact hstage' _ rfl

/-- Nobody is committed twice. -/
theorem not_mem_commits {call called : ParticipantCall} (h : Consistent w t)
    (hcall : w.calls.get? t = some (.participation call (.backend called)))
    (hnot : called ≠ .abort) : t ∉ commits w.log := by
  intro hin
  have hprepared := (h.calling call called hcall).resolve_left hnot
  rcases h.committed hin with hcommitted | ⟨call', reply, hc⟩
  · rw [hprepared] at hcommitted
    exact absurd hcommitted (by simp)
  · exact absurd (hcall.symm.trans hc) (by simp)

/-- Whoever releases locks is not prepared. -/
theorem ne_prepared {call : ParticipantCall} {stage : ParticipantStage}
    (horderly : Orderly w.store.register w.calls w.log)
    (hcall : w.calls.get? t = some (.participation call stage))
    (hclosing : stage.isClosing = true) : w.store.register.stateOf t ≠ .prepared := by
  intro hprepared
  have hclosed := horderly.closing t call stage hcall hclosing
  rw [Register.isOpen_iff.mpr (Or.inr hprepared)] at hclosed
  exact absurd hclosed (by simp)

theorem calls {call called : ParticipantCall} {stage' : ParticipantStage} {backend : Memory}
    (h : Consistent w t) (horderly : Orderly w.store.register w.calls w.log)
    (hcall : w.calls.get? t = some (.participation call (.backend called)))
    (hcalled : Called t w.store.backend called stage' backend) :
    Consistent
      { store := { w.store with backend }
        calls := w.calls.change t (Call.ofParticipantStage call stage')
        log := w.log ++ Event.ofParticipantStep t call (.backend called) stage' } t := by
  have hrests := @rests w t call (.backend called) stage' { w.store with backend } h hcall
    (.refl _) (Or.inl rfl)
  cases hcalled with
  | refused hshut =>
      refine hrests rfl (by simp) (by simp) (by simp) ?_
      intro _ hopen
      rw [hshut] at hopen
      exact absurd hopen (by simp)
  | prepares =>
      refine hrests rfl (by simp) (by simp) (by simp) ?_
      intro _ _
      exact ⟨_, by rw [Memory.write, FinMap.get?_insert_self], rfl⟩
  | loses hopen hpending hunprepared =>
      have hprepared := (h.calling call _ hcall).resolve_left (by simp)
      obtain ⟨writes, hwrites, hflag⟩ := h.isFlagged
        (fun call' called' hc => by cases hcall.symm.trans hc; simp)
        (fun call' reply hc => by cases hcall.symm.trans hc) hprepared hopen
      rw [hpending] at hwrites
      cases hwrites
      rw [hunprepared] at hflag
      exact absurd hflag (by simp)
  | aborts =>
      exact hrests rfl (by simp) (by simp) (by simp) fun hprepared =>
        absurd hprepared (ne_prepared horderly hcall rfl)
  | @commits _ reply _ hopen hnot =>
      have hprepared := (h.calling call called hcall).resolve_left hnot
      have hleft : (w.calls.change t (Call.ofParticipantStage call (.committed reply))).get? t =
          some (.participation call (.committed reply)) :=
        FinMap.get?_change_self _ _ _
      exact
        { operating := fun _ _ hc => absurd (hleft.symm.trans hc) (by simp)
          calling := fun _ _ hc => absurd (hleft.symm.trans hc) (by simp)
          following := fun _ _ _ => ⟨by simp [Event.ofParticipantStep, commits, Event.committer?],
            hprepared⟩
          flagged := fun _ _ => Or.inl ⟨call, Or.inr (Or.inr ⟨reply, hleft⟩)⟩
          committed := fun _ => Or.inr ⟨call, reply, hleft⟩
          logged := fun hc => absurd (hprepared.symm.trans hc) (by simp) }

/-- Whoever prepares is about to call the backend. -/
theorem prepares {call called : ParticipantCall} {store : LockingStore Memory} (h : Consistent w t)
    (hcall : w.calls.get? t = some (.participation call (.enter called)))
    (hkind : called = .prepare ∨ called = .prepareAndCommit)
    (hactive : w.store.register.stateOf t = .active)
    (hprepared : store.register.stateOf t = .prepared) :
    Consistent
      { store
        calls := w.calls.change t (Call.ofParticipantStage call (.backend called))
        log := w.log ++ Event.ofParticipantStep t call (.enter called) (.backend called) } t := by
  have hleft : (w.calls.change t (Call.ofParticipantStage call (.backend called))).get? t =
      some (.participation call (.backend called)) :=
    FinMap.get?_change_self _ _ _
  have hnone : commits (Event.ofParticipantStep t call (.enter called) (.backend called)) = [] :=
    rfl
  refine
    { operating := fun _ _ hc => absurd (hleft.symm.trans hc) (by simp)
      calling := fun _ _ _ => Or.inr hprepared
      following := fun _ _ hc => absurd (hleft.symm.trans hc) (by simp)
      flagged := ?_
      committed := ?_
      logged := fun hc => absurd (hprepared.symm.trans hc) (by simp) }
  · intro _ _
    rcases hkind with rfl | rfl
    · exact Or.inl ⟨call, Or.inl hleft⟩
    · exact Or.inl ⟨call, Or.inr (Or.inl hleft)⟩
  · intro hin
    rw [commits_append, hnone, List.append_nil] at hin
    rcases h.committed hin with hcommitted | ⟨_, _, hc⟩
    · exact absurd (hactive.symm.trans hcommitted) (by simp)
    · exact absurd (hcall.symm.trans hc) (by simp)

theorem completes {call : ParticipantCall} {reply : Reply} {store : LockingStore Memory}
    (h : Consistent w t) (hcall : w.calls.get? t = some (.participation call (.committed reply)))
    (hcommitted : store.register.stateOf t = .committed) :
    Consistent
      { store
        calls := w.calls.change t (Call.ofParticipantStage call (.releaseObjects (.ok reply)))
        log := w.log ++
          Event.ofParticipantStep t call (.committed reply) (.releaseObjects (.ok reply)) } t := by
  have hin := (h.following call reply hcall).1
  have hleft : (w.calls.change t
      (Call.ofParticipantStage call (.releaseObjects (.ok reply)))).get? t =
        some (.participation call (.releaseObjects (.ok reply))) :=
    FinMap.get?_change_self _ _ _
  exact
    { operating := fun _ _ hc => absurd (hleft.symm.trans hc) (by simp)
      calling := fun _ _ hc => absurd (hleft.symm.trans hc) (by simp)
      following := fun _ _ hc => absurd (hleft.symm.trans hc) (by simp)
      flagged := fun hprepared => absurd (hcommitted.symm.trans hprepared) (by simp)
      committed := fun _ => Or.inl hcommitted
      logged := fun _ => by
        rw [commits_append]
        exact List.mem_append_left _ hin }

theorem participation {call : ParticipantCall} {stage stage' : ParticipantStage}
    {store : LockingStore Memory} (h : Consistent w t)
    (horderly : Orderly w.store.register w.calls w.log)
    (hcall : w.calls.get? t = some (.participation call stage))
    (hstep : ParticipantMove w.store t stage stage' store) :
    Consistent
      { store
        calls := w.calls.change t (Call.ofParticipantStage call stage')
        log := w.log ++ Event.ofParticipantStep t call stage stage' } t := by
  have hrests := @rests w t call stage stage' store h hcall (after_of_participantMove hstep)
  -- Before and after a call of the backend, the backend knows who is prepared.
  have hflagged : (∀ called, stage ≠ .backend called) → (∀ reply, stage ≠ .committed reply) →
      w.store.register.stateOf t = .prepared → w.store.backend.isShutDown = false →
      ∃ writes, w.store.backend.pending.get? t = some writes ∧ writes.prepared = true := by
    intro hno hno'
    refine h.isFlagged ?_ ?_
    · intro call' called hc
      cases hcall.symm.trans hc
      exact absurd rfl (hno called)
    · intro call' reply hc
      cases hcall.symm.trans hc
      exact absurd rfl (hno' reply)
  cases hstep with
  | refused hwounded =>
      have hstate := stateOf_of_wounded hwounded t
      exact hrests hstate rfl (by simp) (by simp) (by simp) fun hprepared =>
        hflagged (by simp) (by simp) (was_prepared hstate hprepared)
  | prepares hkind hactive hprepared => exact h.prepares hcall hkind hactive hprepared
  | entersCommit hprepared =>
      refine hrests (Or.inl rfl) rfl (by simp) (by simp) ?_ (hflagged (by simp) (by simp))
      intro _ _
      exact Or.inr hprepared
  | entersAbort _ haborted =>
      refine hrests (Or.inr haborted) rfl (by simp) (by simp) ?_ ?_
      · intro called hstage
        cases hstage
        exact Or.inl rfl
      · intro hprepared
        exact absurd (haborted.symm.trans hprepared) (by simp)
  | calls hcalled => exact h.calls horderly hcall (called_of_callBackend hcalled)
  | completes hcommitted => exact h.completes hcall hcommitted
  | releasesObjects =>
      exact hrests (Or.inl rfl) rfl (by simp) (by simp) (by simp)
        (fun hprepared => absurd hprepared (ne_prepared horderly hcall rfl))
  | @releasesNames result =>
      refine hrests (Or.inl rfl) ?_ (by simp) ?_ ?_
        (fun hprepared => absurd hprepared (ne_prepared horderly hcall rfl))
      · cases result <;> rfl
      · cases result <;> simp [ParticipantStage.ofResult]
      · cases result <;> simp [ParticipantStage.ofResult]
  | @fails e =>
      have hstate := stateOf_noteFailure w.store.register t e
      exact hrests hstate rfl (by simp) (by simp) (by simp) fun hprepared =>
        hflagged (by simp) (by simp) (was_prepared hstate hprepared)

/-- Whatever a transaction does itself keeps it consistent. -/
theorem own (h : Consistent w t) (horderly : Orderly w.store.register w.calls w.log)
    (hown : w.OwnMove t w') : Consistent w' t := by
  have hafter := after_of_ownMove hown
  cases hown with
  | @begins seniority lifetime hnew =>
      have hnone : ∀ call, w.calls.get? t ≠ some call := by
        intro call hcall
        rw [horderly.called t call hcall] at hnew
        exact absurd hnew (by simp)
      have hactive : (w.store.begin t seniority lifetime).register.stateOf t = .active := by
        show (Register.find _ t).state = _
        rw [Store.begin, Register.find_start_self]
        rfl
      exact
        { operating := fun _ _ hc => absurd hc (hnone _)
          calling := fun _ _ hc => absurd hc (hnone _)
          following := fun _ _ hc => absurd hc (hnone _)
          flagged := fun hprepared => absurd (hactive.symm.trans hprepared) (by simp)
          committed := by
            intro hin
            rcases h.committed hin with hcommitted | ⟨_, _, hc⟩
            · rw [Register.stateOf_of_unknown hnew] at hcommitted
              exact absurd hcommitted (by simp)
            · exact absurd hc (hnone _)
          logged := fun hcommitted => absurd (hactive.symm.trans hcommitted) (by simp) }
  | @starts op stage register hfree _ hwounded hstage =>
      have hstate := stateOf_of_wounded hwounded t
      refine h.goesOn hafter hstate rfl (by simp [hfree]) ?_ (by simp) (by simp) ?_
      · intro op' stage' hcall
        rw [FinMap.get?_insert_self] at hcall
        cases hcall
        rcases hstage with ⟨-, hactive⟩ | hfails
        · exact Or.inl hactive
        · exact Or.inr (Or.inr hfails)
      · intro hprepared
        exact h.isFlagged (by simp [hfree]) (by simp [hfree]) (was_prepared hstate hprepared)
  | participates hfree =>
      exact h.goesOn hafter (Or.inl rfl) rfl (by simp [hfree]) (by simp) (by simp) (by simp)
        (h.isFlagged (by simp [hfree]) (by simp [hfree]))
  | operation hcall hstep => exact h.operation hcall hstep
  | participation hcall hstep => exact h.participation horderly hcall hstep

end Consistent

end Traffic

end ObjectStore
