/-
Whoever binds a new name keeps others out of the gap that it splits.

A new name stands in a gap between committed names.  To bind it a transaction locks the next name to
write, and so holds the end of the gap until it is committed or aborted.  Meanwhile nobody else can
commit a name in the same gap, for it would have to hold the same end.

All this rests on the lock being one on the next name of the moment at which it is given.  A
`set_binding` does not look again after it has waited, and what it gets may be out of date: `Stale`
describes the store at such a moment.  As long as that does not happen, new names are fenced.
-/
import ObjectStore.Proofs.Backend.Gap
import ObjectStore.Proofs.Store.Live

namespace ObjectStore

/-- A name that a plan has newly bound was bound by a `set_binding` that goes on to lock the next
name. -/
theorem Acted.binds_of_sees {t : TxnId} {m m' : Memory} {plan : Plan} {stage' : Stage}
    {op : Operation} {name : Name} (h : Acted t m plan stage' m') (hfits : plan.Fits op)
    (hnew : ¬ m.Sees t name) (hsees : m'.Sees t name) :
    ∃ oid access, op = .setBinding name oid ∧ stage' = .report access (.answer (.ok .done)) := by
  have hsame : ∀ oid name', name' ≠ name →
      m' = m.write t (·.writeName name' oid) → m'.binding? t name = m.binding? t name := by
    rintro oid name' hne rfl
    rw [Memory.binding?_writeName, if_neg fun hboth => hne hboth.2]
  have hmust : m'.binding? t name ≠ m.binding? t name := by
    intro heq
    exact hnew (by rw [Memory.Sees, ← heq]; exact hsees)
  cases h with
  | fails hkeeps => exact absurd (hkeeps.binding? t name) hmust
  | plain hkeeps => exact absurd (hkeeps.binding? t name) hmust
  | @rebinds name' oid before _ hbound =>
      by_cases hname : name' = name
      · subst hname
        exact absurd (by rw [Memory.Sees, hbound]; rfl) hnew
      · exact absurd (hsame (some oid) name' hname rfl) hmust
  | @binds name' oid _ _ _ hwrite =>
      by_cases hname : name' = name
      · subst hname
        exact ⟨oid, _, hfits, rfl⟩
      · exact absurd (hsame (some oid) name' hname hwrite) hmust
  | @unbinds name' before _ _ _ hwrite =>
      by_cases hname : name' = name
      · subst hname
        rw [Memory.Sees, hwrite, Memory.binding?_writeName, if_pos ⟨rfl, rfl⟩] at hsees
        exact absurd hsees (by simp)
      · exact absurd (hsame none name' hname hwrite) hmust
  | _ => exact absurd rfl hmust

namespace Traffic

variable {w w' : LockingTraffic Memory} {t u : TxnId} {name : Name} {after next : Option Name}

/-- Whether a `set_binding` has bound the name and waits for the lock on the next one. -/
def Awaits (w : LockingTraffic Memory) (t : TxnId) (name : Name) : Prop :=
  ∃ oid stage, w.calls.get? t = some (.operation (.setBinding name oid) stage) ∧
    ((∃ access result, stage = .report access (.answer result)) ∨
      ∃ signal access result, stage = .waiting signal access (.answer result))

/-- Every new name of a live transaction has the committed name behind it locked. -/
def Fenced (w : LockingTraffic Memory) : Prop :=
  ∀ t name, Live w t → w.store.backend.Inserted t name → ¬ Awaits w t name →
    .accessed t (.name (.ofPosition (w.store.backend.nextCommitted? (some name))) .write) ∈ w.log

/-- A `set_binding` has got the lock that it asked for, but the committed name behind the new one is
another by now, and is not locked. -/
def Stale (w : LockingTraffic Memory) : Prop :=
  ∃ t name oid, Live w t ∧ w.store.backend.Inserted t name ∧
    w.calls.get? t = some (.operation (.setBinding name oid) (.act (.answer (.ok .done)))) ∧
    .accessed t (.name (.ofPosition (w.store.backend.nextCommitted? (some name))) .write) ∉ w.log

/-- Some lock of a run was out of date when it was given. -/
def Lapsed (shards : Nat) (actions : List StoreAction) : Prop :=
  ∃ actions', actions' <+: actions ∧ Stale ((Traffic.new shards Memory.empty).run actions')

theorem Lapsed.mono {shards : Nat} {actions actions' : List StoreAction} (h : Lapsed shards actions)
    (hpre : actions <+: actions') : Lapsed shards actions' := by
  obtain ⟨before, hbefore, hstale⟩ := h
  exact ⟨before, hbefore.trans hpre, hstale⟩

namespace Sound

theorem not_accessed (h : Sound w) (hu : t ≠ u) {key : NameKey} {mode : LockMode}
    (hopen : w.store.register.isOpen t = true) (hwrite : .accessed t (.name key .write) ∈ w.log)
    (hopen' : w.store.register.isOpen u = true) : .accessed u (.name key mode) ∉ w.log := by
  intro haccess
  have hno := h.retains.agrees hu hwrite hopen haccess hopen'
  cases mode <;> simp [Access.conflictsWith, LockMode.conflictsWith] at hno

/-- A transaction has access to whatever it sees otherwise than it is committed. -/
theorem accessed_of_ne (h : Sound w)
    (hne : w.store.backend.binding? t name ≠ w.store.backend.names.get? name) :
    .accessed t (.name (.ofPosition (some name)) .write) ∈ w.log :=
  (h.traced t).written name (Memory.isSome_written hne)

end Sound

namespace Fenced

theorem new (shards : Nat) : Fenced (Traffic.new shards Memory.empty) :=
  fun _ _ _ hinserted => absurd hinserted.sees (by
    simp [Traffic.new, Store.new, Memory.Sees, Memory.binding?, FinMap.under?, Memory.writes,
      Memory.empty, WriteSet.empty])

/-- Whoever commits a new name has locked the committed name behind it. -/
theorem of_commits (h : Fenced w) (hsound : Sound w) (hcommits : Commits w t w')
    (hcommitted : w'.store.backend.Committed name) (hnew : ¬ w.store.backend.Committed name) :
    .accessed t (.name (.ofPosition (w.store.backend.nextCommitted? (some name))) .write) ∈
      w.log := by
  obtain ⟨call, called, hcall, -⟩ := hcommits.before
  refine h t name (hsound.live_of_commits hcommits) ⟨?_, hnew⟩ ?_
  · rw [Memory.Sees, ← hcommits.names]
    exact hcommitted
  · rintro ⟨oid, stage, hcall', -⟩
    exact absurd (hcall.symm.trans hcall') (by simp)

/-- A commit of another transaction leaves a gap alone whose end is locked. -/
theorem follows_of_commits (h : Fenced w) (hsound : Sound w) (hcommits : Commits w t w')
    (hu : t ≠ u) (hopen : w.store.register.isOpen u = true) {mode : LockMode}
    (haccess : .accessed u (.name (.ofPosition next) mode) ∈ w.log)
    (hfollows : Follows w.store.backend.Committed after next) :
    Follows w'.store.backend.Committed after next := by
  have hopen' := (hsound.live_of_commits hcommits).isOpen
  constructor
  · rintro name rfl
    obtain ⟨hafter, hcommitted⟩ := hfollows.found name rfl
    refine ⟨hafter, ?_⟩
    rw [Memory.Committed, hsound.names_of_accessed hcommits hu hopen haccess]
    exact hcommitted
  · intro name hafter hbefore hcommitted
    have hlocked := h.of_commits hsound hcommits hcommitted (hfollows.gap name hafter hbefore)
    -- The end of the gap is the end of its second half.
    have hnext : w.store.backend.nextCommitted? (some name) = next :=
      (w.store.backend.follows_nextCommitted? (some name)).unique
        (hfollows.of_between hafter hbefore)
    rw [hnext] at hlocked
    exact hsound.not_accessed hu hopen' hlocked hopen haccess

theorem beside (h : Fenced w) (hsound : Sound w) (hmove : w.Move w') (hbeside : Beside w w' t)
    (hlive : Live w' t) (hinserted : w'.store.backend.Inserted t name) (hnot : ¬ Awaits w' t name) :
    .accessed t (.name (.ofPosition (w'.store.backend.nextCommitted? (some name))) .write) ∈
      w'.log := by
  have hwas := Live.of_beside hbeside hlive
  have hwrites := Live.writes_of_beside hbeside hlive
  have hnot' : ¬ Awaits w t name := by
    rintro ⟨oid, stage, hcall, hstage⟩
    exact hnot ⟨oid, stage, hbeside.call.trans hcall, hstage⟩
  rcases hmove.commits_or_names with ⟨hnames, -⟩ | ⟨u, hcommits⟩
  · have hview := Memory.binding?_congr (u := t) hnames (congrArg WriteSet.names hwrites)
    have hinserted' : w.store.backend.Inserted t name := by
      refine ⟨?_, ?_⟩
      · rw [Memory.Sees, ← hview]
        exact hinserted.sees
      · rw [Memory.Committed, ← hnames]
        exact hinserted.isNew
    have hlocked := hbeside.accessed (h t name hwas hinserted' hnot')
    unfold Memory.nextCommitted? at hlocked ⊢
    rwa [hnames]
  · have hu := hlive.ne_of_commits hcommits
    have hwritten := Memory.isSome_written hinserted.ne
    rw [hwrites] at hwritten
    -- Nobody else commits a name that the transaction has written.
    have haccess := (hsound.traced t).written name hwritten
    have hname := hsound.names_of_accessed hcommits hu hwas.isOpen haccess
    have hview := hsound.binding?_of_accessed hcommits hu hwas.isOpen hwrites haccess
    have hinserted' : w.store.backend.Inserted t name := by
      refine ⟨?_, ?_⟩
      · rw [Memory.Sees, ← hview]
        exact hinserted.sees
      · rw [Memory.Committed, ← hname]
        exact hinserted.isNew
    have hlocked := h t name hwas hinserted' hnot'
    have hfollows := h.follows_of_commits hsound hcommits hu hwas.isOpen hlocked
      (w.store.backend.follows_nextCommitted? (some name))
    rw [(w'.store.backend.follows_nextCommitted? (some name)).unique hfollows]
    exact hbeside.accessed hlocked

/-- A step of its operation leaves the new names of a transaction fenced, unless it gets a lock that
is out of date. -/
theorem liveStep (h : Fenced w) (hsound : Sound w) {op : Operation} {stage stage' : Stage}
    (hcall : w.calls.get? t = some (.operation op stage)) (hlive : Live w t)
    (hstep : Live.LiveStep t w.store.backend stage stage' w'.store.backend)
    (hlive' : Live w' t) (hcall' : w'.calls.get? t = Call.ofStage op stage')
    (hlog : ∀ access, .accessed t access ∈ w.log → .accessed t access ∈ w'.log)
    (hfresh : ¬ Stale w') (hinserted : w'.store.backend.Inserted t name)
    (hnot : ¬ Awaits w' t name) :
    .accessed t (.name (.ofPosition (w'.store.backend.nextCommitted? (some name))) .write) ∈
      w'.log := by
  have hfits := ((hsound.traced t).fits op stage hcall).1
  -- A new name that was fenced before still is.
  have hold : w'.store.backend.names = w.store.backend.names → w.store.backend.Inserted t name →
      ¬ Awaits w t name →
      .accessed t (.name (.ofPosition (w'.store.backend.nextCommitted? (some name))) .write) ∈
        w'.log := by
    intro hnames hin hno
    have hlocked := hlog _ (h t name hlive hin hno)
    unfold Memory.nextCommitted? at hlocked ⊢
    rwa [hnames]
  have hquiet : (∀ access result, stage ≠ .report access (.answer result)) →
      (∀ signal access result, stage ≠ .waiting signal access (.answer result)) →
      ¬ Awaits w t name := by
    rintro hno hno' ⟨oid, stage'', hc, hstage⟩
    cases hcall.symm.trans hc
    rcases hstage with ⟨access, result, hr⟩ | ⟨signal, access, result, hr⟩
    · exact hno access result hr
    · exact hno' signal access result hr
  generalize hm : w'.store.backend = m' at hstep hinserted hold ⊢
  cases hstep with
  | @allowed access plan =>
      by_cases hawaits : Awaits w t name
      · obtain ⟨oid, stage'', hc, hstage⟩ := hawaits
        cases hcall.symm.trans hc
        rcases hstage with ⟨access', result, hr⟩ | ⟨_, _, _, hr⟩
        · cases hr
          -- The lock is given now, and it is not out of date.
          have hresult : result = .ok .done := by
            rcases hfits with ⟨_, hop, -⟩ | ⟨_, _, -, hresult⟩ | ⟨_, hop⟩
            · cases hop
            · exact hresult
            · cases hop
          subst hresult
          by_contra hno
          rw [← hm] at hinserted hno
          exact hfresh ⟨t, name, oid, hlive', hinserted, hcall', hno⟩
        · cases hr
      · exact hold rfl hinserted hawaits
  | @waits signal access plan =>
      refine hold rfl hinserted ?_
      rintro ⟨oid, stage'', hc, hstage⟩
      cases hcall.symm.trans hc
      rcases hstage with ⟨_, result, hr⟩ | ⟨_, _, _, hr⟩
      · cases hr
        exact hnot ⟨oid, _, hcall', Or.inr ⟨signal, access, result, rfl⟩⟩
      · cases hr
  | @wakes signal access plan =>
      refine hold rfl hinserted ?_
      rintro ⟨oid, stage'', hc, hstage⟩
      cases hcall.symm.trans hc
      rcases hstage with ⟨_, _, hr⟩ | ⟨_, _, result, hr⟩
      · cases hr
      · cases hr
        exact hnot ⟨oid, _, hcall', Or.inl ⟨access, result, rfl⟩⟩
  | fails => exact hold rfl hinserted (hquiet (by simp) (by simp))
  | @acts plan stage' _ hacted =>
      by_cases hin : w.store.backend.Inserted t name
      · exact hold hacted.names hin (hquiet (by simp) (by simp))
      · have hunseen : ¬ w.store.backend.Sees t name := by
          intro hsees
          refine hin ⟨hsees, ?_⟩
          rw [Memory.Committed, ← hacted.names]
          exact hinserted.isNew
        obtain ⟨oid, access, rfl, rfl⟩ := hacted.binds_of_sees hfits hunseen hinserted.sees
        exact absurd ⟨oid, _, hcall', Or.inl ⟨access, _, rfl⟩⟩ hnot

theorem own (h : Fenced w) (hsound : Sound w) (hown : w.OwnMove t w') (hfresh : ¬ Stale w')
    (hlive : Live w' t) (hinserted : w'.store.backend.Inserted t name) (hnot : ¬ Awaits w' t name) :
    .accessed t (.name (.ofPosition (w'.store.backend.nextCommitted? (some name))) .write) ∈
      w'.log := by
  cases hown with
  | begins hnew =>
      obtain ⟨-, hview⟩ := hsound.nothing_of_unknown hnew
      exact absurd (congrFun hview name) hinserted.ne
  | starts hfree _ hwounded =>
      have hwas : Live w t :=
        .of_free hfree (hwounded.isOpen_of_isOpen hlive.isOpen) hlive.isServed
      refine h t name hwas hinserted ?_
      rintro ⟨_, _, hc, -⟩
      exact absurd (hfree.symm.trans hc) (by simp)
  | participates hfree =>
      have hwas : Live w t := .of_free hfree hlive.isOpen hlive.isServed
      refine h t name hwas hinserted ?_
      rintro ⟨_, _, hc, -⟩
      exact absurd (hfree.symm.trans hc) (by simp)
  | operation hcall hstep =>
      obtain ⟨hwas, hlivestep⟩ := hlive.operation hsound hcall hstep
      exact h.liveStep hsound hcall hwas hlivestep hlive (by rw [FinMap.get?_change_self])
        (fun _ => List.mem_append_left _) hfresh hinserted hnot
  | participation hcall hstep =>
      obtain ⟨hwas, hkeeps⟩ := hlive.participation hsound hcall hstep
      have hinserted' : w.store.backend.Inserted t name := by
        refine ⟨?_, ?_⟩
        · rw [Memory.Sees, ← hkeeps.binding? t name]
          exact hinserted.sees
        · rw [Memory.Committed, ← hkeeps.names]
          exact hinserted.isNew
      have hlocked := h t name hwas hinserted' (by
        rintro ⟨_, _, hc, -⟩
        exact absurd (hcall.symm.trans hc) (by simp))
      unfold Memory.nextCommitted? at hlocked ⊢
      rw [← hkeeps.names] at hlocked
      exact List.mem_append_left _ hlocked

/-- **Every action leaves new names fenced**, unless it gets a lock that is out of date. -/
theorem move (h : Fenced w) (hsound : Sound w) (hmove : w.Move w') (hfresh : ¬ Stale w') :
    Fenced w' := by
  intro t name hlive hinserted hnot
  rcases hmove.beside_or_own t with hbeside | hown
  · exact h.beside hsound hmove hbeside hlive hinserted hnot
  · exact h.own hsound hown hfresh hlive hinserted hnot

/-- A lock that is out of date leaves a new name without a fence. -/
theorem not_of_stale (hstale : Stale w) : ¬ Fenced w := by
  obtain ⟨t, name, oid, hlive, hinserted, hcall, hno⟩ := hstale
  intro h
  refine hno (h t name hlive hinserted ?_)
  rintro ⟨_, stage, hc, hstage⟩
  cases hcall.symm.trans hc
  rcases hstage with ⟨_, _, hr⟩ | ⟨_, _, _, hr⟩
  · cases hr
  · cases hr

/-- As long as no lock was out of date, new names are fenced. -/
theorem run {shards : Nat} {actions : List StoreAction} (h : ¬ Lapsed shards actions) :
    Fenced ((Traffic.new shards Memory.empty).run actions) := by
  induction actions using List.reverseRecOn with
  | nil => exact new shards
  | append_singleton actions a ih =>
      have hbefore := ih fun hlapsed => h (hlapsed.mono (List.prefix_append actions [a]))
      rw [run_concat]
      refine hbefore.move (Sound.run shards actions) (move_perform _ a) fun hstale => ?_
      rw [← run_concat] at hstale
      exact h ⟨actions ++ [a], List.prefix_refl _, hstale⟩

/-- **New names are fenced at every moment of a run exactly if no lock of it is out of date.** -/
theorem run_iff (shards : Nat) (actions : List StoreAction) :
    (∀ actions', actions' <+: actions → Fenced ((Traffic.new shards Memory.empty).run actions')) ↔
      ¬ Lapsed shards actions := by
  constructor
  · rintro h ⟨actions', hpre, hstale⟩
    exact not_of_stale hstale (h actions' hpre)
  · intro h actions' hpre
    exact run fun hlapsed => h (hlapsed.mono hpre)

end Fenced

end Traffic

end ObjectStore
