/-
Scans that are repeated.

Whoever is told of a next name has locked it.  So nobody else removes it as long as the transaction
is open, and asked again the transaction would be told of the same name, but for names that others
have bound in front of it since.  `Scans` says so of a transaction at every moment.

If new names are fenced nobody binds any there, because the end of the gap would have to be locked
to write.  So a name that does come up tells of a lock that was out of date, in the sense of
`Lapsed`.
-/
import ObjectStore.Proofs.Store.Fence
import ObjectStore.Proofs.Store.Scan

namespace ObjectStore

/-! ### Transactions that scan -/

namespace Traffic

variable {w w' : LockingTraffic Memory} {t u : TxnId} {after next : Option Name} {name : Name}
variable {late late' : Prop}

/-- What is true of a transaction that has been told of a next name; `late` says whether a lock may
have been out of date. -/
structure Scans (late : Prop) (w : LockingTraffic Memory) (t : TxnId) : Prop where
  locked : ∀ after next, Scanned w.log t after next →
    .accessed t (.name (.ofPosition next) .read) ∈ w.log
  held : ∀ after next, Scanned w.log t after next → Live w t →
    Call.isChange (w.calls.get? t) = false → w.store.backend.Held late t after next
  /-- Once a scan is allowed to go on, it does not matter whether its transaction is wounded. -/
  takes : ∀ after next, Scanned w.log t after next → ∀ stage candidate,
    w.calls.get? t = some (.operation (.nextName after) stage) →
    stage.candidate? = some candidate → w.store.backend.isShutDown = false →
    Live w t ∨ stage.isAllowed = true → w.store.backend.Takes late t after next candidate

namespace Scans

theorem new (late : Prop) (shards : Nat) (t : TxnId) :
    Scans late (Traffic.new shards Memory.empty) t := by
  have hnone : ∀ after next, ¬ Scanned (Traffic.new shards Memory.empty).log t after next := by
    rintro after next ⟨before, rest, hlog, -⟩
    exact absurd hlog (by simp [Traffic.new])
  exact
    { locked := fun after next h => absurd h (hnone after next)
      held := fun after next h => absurd h (hnone after next)
      takes := fun after next h => absurd h (hnone after next) }

theorem mono (h : Scans late w t) (hlate : late → late') : Scans late' w t where
  locked := h.locked
  held := fun after next hscanned hlive hcall => (h.held after next hscanned hlive hcall).mono hlate
  takes := fun after next hscanned stage candidate hcall hcandidate hopen hlive =>
    (h.takes after next hscanned stage candidate hcall hcandidate hopen hlive).mono hlate

/-- A commit of another transaction takes nothing away that was scanned, and if new names are fenced
it puts nothing in front of it. -/
theorem held_of_commits (h : Scans late w t) (hsound : Sound w) (hfenced : ¬ late → Fenced w)
    (hcommits : Commits w u w') (hu : u ≠ t)
    (hwrites : w'.store.backend.writes t = w.store.backend.writes t) (hlive : Live w t)
    (hscanned : Scanned w.log t after next) (hcall : Call.isChange (w.calls.get? t) = false) :
    w'.store.backend.Held late t after next := by
  have hheld := h.held after next hscanned hlive hcall
  have hlocked := h.locked after next hscanned
  have hopen' := (hsound.live_of_commits hcommits).isOpen
  constructor
  · rintro name rfl
    rw [Memory.Sees, hsound.binding?_of_accessed hcommits hu hlive.isOpen hwrites hlocked]
    exact hheld.found name rfl
  · intro name hafter hbefore hsees
    have hunwritten : (w.store.backend.writes t).names.get? name = none := by
      by_contra hwritten
      have haccess := (hsound.traced t).written name (Option.isSome_iff_ne_none.mpr hwritten)
      rw [Memory.Sees, hsound.binding?_of_accessed hcommits hu hlive.isOpen hwrites haccess] at hsees
      exact hwritten (hheld.gap name hafter hbefore hsees).1
    refine ⟨by rw [hwrites]; exact hunwritten, ?_⟩
    by_contra hno
    have hcommitted : w'.store.backend.Committed name := by
      have hstill : (w'.store.backend.writes t).names.get? name = none := by
        rw [hwrites]
        exact hunwritten
      rw [Memory.Committed, ← Memory.binding?_of_not_written hstill]
      exact hsees
    have hnew : ¬ w.store.backend.Committed name := by
      intro hwas
      refine hno (hheld.gap name hafter hbefore ?_).2
      rw [Memory.Sees, Memory.binding?_of_not_written hunwritten]
      exact hwas
    -- Whoever has committed the name has locked the committed name behind it.
    have hend := (hfenced hno).of_commits hsound hcommits hcommitted hnew
    have hfollows := w.store.backend.follows_nextCommitted? (some name)
    rcases position_trichotomy (w.store.backend.nextCommitted? (some name)) next with
      heq | ⟨k, hk, hkbefore⟩ | ⟨k, rfl, hkbefore⟩
    · rw [heq] at hend
      exact hsound.not_accessed hu hopen' hend hlive.isOpen hlocked
    · -- That one is not seen by the transaction that has scanned, so it has removed it.
      obtain ⟨hkafter, hkcommitted⟩ := hfollows.found k hk
      rw [hk] at hend
      have hunseen : ¬ w.store.backend.Sees t k :=
        fun hksees => hno (hheld.gap k (hafter.trans hkafter) hkbefore hksees).2
      exact hsound.not_accessed hu hopen' hend hlive.isOpen
        (hsound.accessed_of_ne (Memory.ne_of_removed hkcommitted hunseen))
    · -- The next name that was told of is a new one, and fenced itself.
      have hksees := (hheld.found k rfl).2
      have hinserted : w.store.backend.Inserted t k := ⟨hksees, hfollows.gap k hbefore hkbefore⟩
      have hnot : ¬ Awaits w t k := by
        rintro ⟨oid, stage, hc, -⟩
        rw [hc] at hcall
        exact absurd hcall (by simp [Call.isChange, Operation.isChange])
      have hfence := hfenced hno t k hlive hinserted hnot
      rw [(w.store.backend.follows_nextCommitted? (some k)).unique
        (hfollows.of_between hbefore hkbefore)] at hfence
      exact hsound.not_accessed hu hopen' hend hlive.isOpen hfence

theorem beside (h : Scans late w t) (hsound : Sound w) (hfenced : ¬ late → Fenced w)
    (hmove : w.Move w') (hbeside : Beside w w' t) : Scans late w' t := by
  have hscanned : ∀ after next, Scanned w'.log t after next → Scanned w.log t after next := by
    intro after next hs
    obtain ⟨events, hlog, hnothing, -⟩ := hbeside.log
    rw [hlog] at hs
    exact (hs.of_append.resolve_right (hnothing _ _)).1
  constructor
  · intro after next hs
    exact hbeside.accessed (h.locked after next (hscanned after next hs))
  · intro after next hs hlive hcall
    have hwas := Live.of_beside hbeside hlive
    have hwrites := Live.writes_of_beside hbeside hlive
    rw [hbeside.call] at hcall
    rcases hmove.commits_or_names with ⟨hnames, -⟩ | ⟨u, hcommits⟩
    · exact (h.held after next (hscanned after next hs) hwas hcall).congr hnames
        (congrArg WriteSet.names hwrites)
    · exact h.held_of_commits hsound hfenced hcommits (hlive.ne_of_commits hcommits) hwrites hwas
        (hscanned after next hs) hcall
  · intro after next hs stage candidate hcall hcandidate hopen hlive
    rw [hbeside.call] at hcall
    rcases hbeside.writes with ⟨hsame, hshut⟩ | ⟨hshut, -⟩
    · rw [hshut] at hopen
      refine (h.takes after next (hscanned after next hs) stage candidate hcall hcandidate hopen
        (hlive.imp_left (Live.of_beside hbeside))).congr ?_
      rw [Memory.writes_congr hsame]
    · exact absurd (hopen.symm.trans hshut) (by simp)

theorem operation (h : Scans late w t) (hsound : Sound w) {op : Operation} {stage stage' : Stage}
    {store : LockingStore Memory} (hcall : w.calls.get? t = some (.operation op stage))
    (hstep : OperationStep w.store t stage stage' store) :
    Scans late
      { store
        calls := w.calls.change t (Call.ofStage op stage')
        log := w.log ++ Event.ofStep t op stage stage' } t := by
  obtain ⟨hfits, hgrounded⟩ := (hsound.traced t).fits op stage hcall
  have hleft : (w.calls.change t (Call.ofStage op stage')).get? t = Call.ofStage op stage' :=
    FinMap.get?_change_self _ _ _
  constructor
  · intro after next hs
    refine List.mem_append_left _ ?_
    rcases hs.ofStep with ⟨hold, -⟩ | ⟨rfl, rfl⟩
    · exact h.locked after next hold
    · obtain ⟨rfl, -⟩ := hstep.follows_of_answer hfits
      exact hgrounded _ rfl
  · intro after next hs hlive hquiet
    rcases hs.ofStep with ⟨hold, hended⟩ | ⟨rfl, rfl⟩
    · have hop : op.isChange = false := by
        cases stage' with
        | ended result => exact hended result rfl
        | _ =>
            rw [hleft] at hquiet
            exact hquiet
      obtain ⟨hwas, hlivestep⟩ := hlive.operation hsound hcall hstep
      have hheld := h.held after next hold hwas (by rw [hcall]; exact hop)
      show store.backend.Held late t after next
      generalize store.backend = m' at hlivestep
      cases hlivestep with
      | acts hacted =>
          have hkeeps := hacted.keepsNames_of_isChange hfits hop
          exact hheld.congr hkeeps.names hkeeps.written
      | _ => exact hheld
    · obtain ⟨-, hbackend, -, hfollows⟩ := hstep.follows_of_answer hfits
      show store.backend.Held late t _ _
      rw [hbackend]
      exact .of_follows hfollows
  · intro after next hs stage'' candidate hcall' hcandidate hopen hlive
    obtain ⟨rfl, rfl⟩ := Call.ofStage_eq (hleft.symm.trans hcall')
    have hold : Scanned w.log t after next := by
      rcases hs.ofStep with ⟨hold, -⟩ | ⟨-, rfl⟩
      · exact hold
      · cases hcandidate
    show store.backend.Takes late t after next candidate
    rcases hlive with hlive | hallowed
    · obtain ⟨hwas, hlivestep⟩ := hlive.operation hsound hcall hstep
      generalize store.backend = m' at hlivestep
      cases hlivestep with
      | allowed =>
          exact h.takes after next hold _ candidate hcall hcandidate hwas.isServed (Or.inl hwas)
      | waits =>
          exact h.takes after next hold _ candidate hcall hcandidate hwas.isServed (Or.inl hwas)
      | wakes =>
          exact h.takes after next hold _ candidate hcall hcandidate hwas.isServed (Or.inl hwas)
      | acts hacted =>
          -- The question is asked now, of a transaction that is live.
          obtain ⟨rfl, hfollows⟩ := hacted.follows_of_candidate hfits hcandidate
          exact (h.held after next hold hwas (by rw [hcall]; rfl)).takes hfollows
      | fails => cases hcandidate
    · cases stage' with
      | act plan =>
          obtain ⟨⟨access, rfl⟩, hactive, hbackend⟩ := hstep.of_isAllowed
          have hserved : w.store.backend.isShutDown = false := hbackend ▸ hopen
          have hwas : Live w t :=
            ⟨Register.isOpen_iff.mpr (Or.inl hactive), hserved, by rw [hcall]; rfl⟩
          rw [hbackend]
          exact h.takes after next hold _ candidate hcall hcandidate hserved (Or.inl hwas)
      | _ => cases hallowed

theorem own (h : Scans late w t) (hsound : Sound w) (hown : w.OwnMove t w') : Scans late w' t := by
  cases hown with
  | begins hnew =>
      have hnone : ∀ after next, ¬ Scanned w.log t after next := by
        intro after next hs
        have hknown := hsound.retains.orderly.accessed t _ (h.locked after next hs)
        rw [hnew] at hknown
        exact absurd hknown (by simp)
      exact
        { locked := h.locked
          held := fun after next hs => absurd hs (hnone after next)
          takes := fun after next hs => absurd hs (hnone after next) }
  | @starts op stage register hfree _ hwounded hstage =>
      refine ⟨h.locked, ?_, ?_⟩
      · intro after next hs hlive _
        have hwas : Live w t :=
          .of_free hfree (hwounded.isOpen_of_isOpen hlive.isOpen) hlive.isServed
        exact h.held after next hs hwas (by rw [hfree]; rfl)
      · intro after next hs stage' candidate hcall hcandidate
        rw [FinMap.get?_insert_self] at hcall
        cases hcall
        rcases hstage with ⟨rfl, -⟩ | ⟨e, rfl, -⟩
        · cases hcandidate
        · cases hcandidate
  | participates hfree =>
      refine ⟨h.locked, ?_, ?_⟩
      · intro after next hs hlive _
        have hwas : Live w t := .of_free hfree hlive.isOpen hlive.isServed
        exact h.held after next hs hwas (by rw [hfree]; rfl)
      · intro after next hs stage' candidate hcall
        rw [FinMap.get?_insert_self] at hcall
        cases hcall
  | operation hcall hstep => exact h.operation hsound hcall hstep
  | @participation call stage stage' store hcall hstep =>
      have hscanned : ∀ after next,
          Scanned (w.log ++ Event.ofParticipantStep t call stage stage') t after next →
          Scanned w.log t after next := by
        intro after next hs
        exact (hs.of_append.resolve_right
          (answered_not_mem_ofParticipantStep _ _ _ _ _ _ _)).1
      refine ⟨?_, ?_, ?_⟩
      · intro after next hs
        exact List.mem_append_left _ (h.locked after next (hscanned after next hs))
      · intro after next hs hlive _
        obtain ⟨hwas, hkeeps⟩ := hlive.participation hsound hcall hstep
        exact (h.held after next (hscanned after next hs) hwas (by rw [hcall]; rfl)).congr
          hkeeps.names hkeeps.written
      · intro after next hs stage'' candidate hcall'
        rw [FinMap.get?_change_self] at hcall'
        cases stage' <;> cases hcall'

theorem move (h : Scans late w t) (hsound : Sound w) (hfenced : ¬ late → Fenced w)
    (hmove : w.Move w') : Scans late w' t :=
  (hmove.beside_or_own t).elim (h.beside hsound hfenced hmove) (h.own hsound)

/-- **At every moment of a run a transaction still sees what it was told of**, and before it only
what others have bound since; and that there is none, as long as no lock was out of date. -/
theorem run (shards : Nat) (actions : List StoreAction) (t : TxnId) :
    Scans (Lapsed shards actions) ((Traffic.new shards Memory.empty).run actions) t := by
  induction actions using List.reverseRecOn with
  | nil => exact new _ shards t
  | append_singleton actions a ih =>
      have hlater : Lapsed shards actions → Lapsed shards (actions ++ [a]) :=
        fun hlapsed => hlapsed.mono (List.prefix_append actions [a])
      rw [run_concat]
      exact (ih.mono hlater).move (Sound.run shards actions)
        (fun hno => Fenced.run (mt hlater hno)) (move_perform _ a)

end Scans

/-! ### Scans in a run -/

/-- The answer to a scan is an old one, or it is given now. -/
theorem Move.answered_cases (hmove : w.Move w') (hsound : Sound w) {before rest : List Event}
    (hlog : w'.log = before ++ .answered t (.nextName after) (.ok (.nextName next)) :: rest) :
    (∃ rest', w.log = before ++ .answered t (.nextName after) (.ok (.nextName next)) :: rest') ∨
      (w.log = before ∧ rest = []) ∧
        w.calls.get? t = some (.operation (.nextName after) (.act (.confirm (.next after) next))) ∧
          w'.store.backend = w.store.backend ∧ w.store.backend.isShutDown = false ∧
            Follows (w.store.backend.Sees t) after next := by
  have hold : ∀ events, w'.log = w.log ++ events →
      .answered t (.nextName after) (.ok (.nextName next)) ∉ events →
      ∃ rest', w.log = before ++ .answered t (.nextName after) (.ok (.nextName next)) :: rest' := by
    intro events hevents hno
    rcases append_eq_append_cons (hevents.symm.trans hlog) with ⟨rest', h, -⟩ | ⟨before', -, h⟩
    · exact ⟨rest', h⟩
    · exact absurd (h ▸ List.mem_append_right before' List.mem_cons_self) hno
  rcases hmove.beside_or_own t with hbeside | hown
  · obtain ⟨events, hevents, hnothing, -⟩ := hbeside.log
    exact Or.inl (hold events hevents (hnothing _ _))
  · cases hown with
    | begins => exact Or.inl ⟨rest, hlog⟩
    | starts => exact Or.inl ⟨rest, hlog⟩
    | participates => exact Or.inl ⟨rest, hlog⟩
    | participation =>
        exact Or.inl (hold _ rfl (answered_not_mem_ofParticipantStep _ _ _ _ _ _ _))
    | @operation op stage stage' store hcall hstep =>
        rcases append_eq_append_cons hlog with ⟨rest', h, -⟩ | ⟨before', hbefore, hevents⟩
        · exact Or.inl ⟨rest', h⟩
        · obtain ⟨rfl, rfl, rfl, rfl⟩ := Event.ofStep_eq_answered hevents
          have hfits := ((hsound.traced t).fits _ _ hcall).1
          obtain ⟨rfl, hbackend, hopen, hfollows⟩ := hstep.follows_of_answer hfits
          rw [List.append_nil] at hbefore
          exact Or.inr ⟨⟨hbefore.symm, rfl⟩, hcall, hbackend, hopen, hfollows⟩

/-- A scan that is answered again gives another answer exactly if others have intruded. -/
theorem answered_again (shards : Nat) (actions : List StoreAction) {next' : Option Name}
    {before rest : List Event}
    (hlog : ((Traffic.new shards Memory.empty).run actions).log =
      before ++ .answered t (.nextName after) (.ok (.nextName next')) :: rest)
    (hscanned : Scanned before t after next) :
    ∃ actions', actions' <+: actions ∧
      ((Traffic.new shards Memory.empty).run actions').log =
        before ++ [.answered t (.nextName after) (.ok (.nextName next'))] ∧
      (next' = next ↔
        ¬ ((Traffic.new shards Memory.empty).run actions').store.backend.Intruded t after next) ∧
      (¬ Lapsed shards actions' → next' = next) := by
  induction actions using List.reverseRecOn generalizing rest with
  | nil => exact absurd hlog (by simp [Traffic.run, Traffic.new])
  | append_singleton actions a ih =>
      rw [run_concat] at hlog
      have hmove := move_perform ((Traffic.new shards Memory.empty).run actions) a
      rcases hmove.answered_cases (Sound.run shards actions) hlog with
        ⟨rest', hold⟩ | ⟨⟨hbefore, rfl⟩, hcall, hbackend, hopen, hfollows⟩
      · obtain ⟨actions', hpre, hrest⟩ := ih hold
        exact ⟨actions', hpre.trans (List.prefix_append actions [a]), hrest⟩
      · have htakes := (Scans.run shards actions t).takes after next (by rwa [hbefore]) _ next'
          hcall rfl hopen (Or.inr rfl)
        refine ⟨actions ++ [a], List.prefix_refl _, ?_, ?_, ?_⟩
        · rw [run_concat]
          exact hlog
        · rw [run_concat, hbackend]
          exact htakes.eq_iff hfollows
        · intro hno
          refine htakes.resolve_right ?_
          rintro ⟨hlapsed, -⟩
          exact hno (hlapsed.mono (List.prefix_append actions [a]))

/--
**Scans repeat as long as no lock is out of date.**  A transaction that scans again, and has changed
no name in between, is told of another next name exactly if others have by then bound a name in
front of the first one; and they have not, unless a `set_binding` got a lock that was out of date.
-/
theorem nextName_again (shards : Nat) (actions : List StoreAction) {t : TxnId}
    {after next next' : Option Name} {log₁ log₂ log₃ : List Event}
    (hlog : ((Traffic.new shards Memory.empty).run actions).log =
      log₁ ++ .answered t (.nextName after) (.ok (.nextName next)) :: log₂ ++
        .answered t (.nextName after) (.ok (.nextName next')) :: log₃)
    (hquiet : ∀ e ∈ log₂, e.isChangeOf t = false) :
    ∃ actions', actions' <+: actions ∧
      ((Traffic.new shards Memory.empty).run actions').log =
        log₁ ++ .answered t (.nextName after) (.ok (.nextName next)) :: log₂ ++
          [.answered t (.nextName after) (.ok (.nextName next'))] ∧
      (next' = next ↔
        ¬ ((Traffic.new shards Memory.empty).run actions').store.backend.Intruded t after next) ∧
      (¬ Lapsed shards actions' → next' = next) :=
  answered_again shards actions hlog ⟨log₁, log₂, rfl, hquiet⟩

/-- A `set_binding` waits for the lock on the end of names, while another transaction commits a name
there.  A third one scans before and after the name of the first is committed. -/
def lateBinding : List StoreAction :=
  [.begin ⟨1⟩ ⟨1, 0⟩ 9, .begin ⟨2⟩ ⟨2, 0⟩ 9, .begin ⟨3⟩ ⟨3, 0⟩ 9,
    .operate ⟨1⟩ (.setBinding ⟨"n"⟩ ⟨7⟩), .proceed ⟨1⟩, .proceed ⟨1⟩, .proceed ⟨1⟩, .proceed ⟨1⟩,
    .operate ⟨2⟩ (.setBinding ⟨"m"⟩ ⟨7⟩), .proceed ⟨2⟩, .proceed ⟨2⟩, .proceed ⟨2⟩,
    .participate ⟨1⟩ .prepareAndCommit, .proceed ⟨1⟩, .proceed ⟨1⟩, .proceed ⟨1⟩, .proceed ⟨1⟩,
    .proceed ⟨1⟩, .proceed ⟨2⟩, .proceed ⟨2⟩, .proceed ⟨2⟩,
    .operate ⟨3⟩ (.nextName none), .proceed ⟨3⟩, .proceed ⟨3⟩, .proceed ⟨3⟩,
    .participate ⟨2⟩ .prepareAndCommit, .proceed ⟨2⟩, .proceed ⟨2⟩, .proceed ⟨2⟩, .proceed ⟨2⟩,
    .proceed ⟨2⟩, .operate ⟨3⟩ (.nextName none), .proceed ⟨3⟩, .proceed ⟨3⟩, .proceed ⟨3⟩]

set_option maxRecDepth 800 in
/-- What the third transaction of that run does between its scans changes no name. -/
theorem log_lateBinding :
    ((Traffic.new 1 Memory.empty).run lateBinding).log =
      [.accessed ⟨1⟩ (.name (.ofName ⟨"n"⟩) .write), .accessed ⟨1⟩ (.name .endOfNames .write),
        .answered ⟨1⟩ (.setBinding ⟨"n"⟩ ⟨7⟩) (.ok .done),
        .accessed ⟨2⟩ (.name (.ofName ⟨"m"⟩) .write), .committed ⟨1⟩,
        .participated ⟨1⟩ .prepareAndCommit (.ok .done),
        .accessed ⟨2⟩ (.name .endOfNames .write), .answered ⟨2⟩ (.setBinding ⟨"m"⟩ ⟨7⟩) (.ok .done),
        .accessed ⟨3⟩ (.name (.ofName ⟨"n"⟩) .read)] ++
        .answered ⟨3⟩ (.nextName none) (.ok (.nextName (some ⟨"n"⟩))) ::
          [.committed ⟨2⟩, .participated ⟨2⟩ .prepareAndCommit (.ok .done),
            .accessed ⟨3⟩ (.name (.ofName ⟨"m"⟩) .read)] ++
        .answered ⟨3⟩ (.nextName none) (.ok (.nextName (some ⟨"m"⟩))) :: [] :=
  rfl

/-- So others have intruded there, and a lock was out of date. -/
theorem intruded_lateBinding :
    ∃ actions', actions' <+: lateBinding ∧
      ((Traffic.new 1 Memory.empty).run actions').store.backend.Intruded ⟨3⟩ none (some ⟨"n"⟩) ∧
      Lapsed 1 actions' := by
  obtain ⟨actions', hpre, -, hiff, hlapsed⟩ :=
    nextName_again 1 lateBinding log_lateBinding (by simp [Event.isChangeOf])
  have hother : ¬ some (⟨"m"⟩ : Name) = some ⟨"n"⟩ := by decide
  exact ⟨actions', hpre, by_contra fun hno => hother (hiff.mpr hno),
    by_contra fun hno => hother (hlapsed hno)⟩

/-- **Scans do not always repeat.** -/
theorem exists_nextName_differs :
    ∃ (shards : Nat) (actions : List StoreAction) (t : TxnId) (after next next' : Option Name)
      (log₁ log₂ log₃ : List Event),
      ((Traffic.new shards Memory.empty).run actions).log =
        log₁ ++ .answered t (.nextName after) (.ok (.nextName next)) :: log₂ ++
          .answered t (.nextName after) (.ok (.nextName next')) :: log₃ ∧
      (∀ e ∈ log₂, e.isChangeOf t = false) ∧ next' ≠ next :=
  ⟨1, lateBinding, ⟨3⟩, none, some ⟨"n"⟩, some ⟨"m"⟩, _, _, [], log_lateBinding,
    by simp [Event.isChangeOf], by decide⟩

end Traffic

end ObjectStore
