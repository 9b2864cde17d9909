/-
The committed names are what the committed transcripts make of them.

Running the transcripts of the committed transactions one after another, in the order in which they
were committed, gives the answers recorded there and leaves the committed names.  For this to stay
true a transaction that may yet commit must fit in next: on the committed names of now, its own
transcript gives its answers and leaves what it sees.

The latter is what locks are for.  A commit changes only names that the committing transaction has
locked to write; nobody else who is open has locked them, so nobody else's transcript is about them.
-/
import ObjectStore.Proofs.Store.Live

namespace ObjectStore

namespace Traffic

variable {w w' : LockingTraffic Memory} {t u : TxnId}

/-- The committed transactions explain the committed names, and any other that may yet commit fits
in next. -/
structure Explained (w : LockingTraffic Memory) : Prop where
  history : Replays (fun _ => none) ((commits w.log).flatMap (transcript · w.log))
    w.store.backend.names.get?
  live : ∀ t, Live w t →
    Replays w.store.backend.names.get? (tentative w.calls w.log t) (w.store.backend.binding? t)
  nodup : (commits w.log).Nodup

namespace Sound

/-- A committed transaction goes on with no operation. -/
theorem failing_of_mem_commits (h : Sound w) (hin : t ∈ commits w.log) {op : Operation}
    {stage : Stage} (hcall : w.calls.get? t = some (.operation op stage)) :
    ∃ e, stage = .failing e ∧ ∀ name, e ≠ .nameNotBound name := by
  have hcommitted : w.store.register.stateOf t = .committed := by
    refine ((h.consistent t).committed hin).resolve_right ?_
    rintro ⟨call, reply, hc⟩
    exact absurd (hcall.symm.trans hc) (by simp)
  rcases (h.consistent t).operating op stage hcall with hactive | haborted | hfailing
  · exact absurd (hcommitted.symm.trans hactive) (by simp)
  · exact absurd (hcommitted.symm.trans haborted) (by simp)
  · exact hfailing

theorem transcript_of_mem_commits (h : Sound w) (hmove : w.Move w') (hin : t ∈ commits w.log) :
    transcript t w'.log = transcript t w.log := by
  rcases hmove.beside_or_own t with hbeside | hown
  · exact hbeside.transcript
  · cases hown with
    | begins => rfl
    | starts => rfl
    | participates => rfl
    | @operation op stage stage' store hcall hstep =>
        obtain ⟨e, rfl, he⟩ := h.failing_of_mem_commits hin hcall
        cases hstep with
        | fails =>
            have hnothing :
                transcript t (Event.ofStep t op (.failing e) (.ended (.error e))) = [] := by
              simp [Event.ofStep, transcript, Event.transcript, finding_error he]
            show transcript t (w.log ++ _) = _
            rw [transcript_append, hnothing, List.append_nil]
    | participation hcall hstep =>
        show transcript t (w.log ++ _) = _
        rw [transcript_append, transcript_ofParticipantStep, List.append_nil]

end Sound

namespace Explained

theorem new (shards : Nat) : Explained (Traffic.new shards Memory.empty) where
  history := .nil _
  live := fun _ _ => .nil _
  nodup := List.nodup_nil

/-- A transaction beside an action fits in next as it did before, whether the action is a commit or
not. -/
theorem beside (h : Explained w) (hsound : Sound w) (hmove : w.Move w')
    (hbeside : Beside w w' t) (hlive : Live w' t) :
    Replays w'.store.backend.names.get? (tentative w'.calls w'.log t)
      (w'.store.backend.binding? t) := by
  have hwas := Live.of_beside hbeside hlive
  have hwrites := Live.writes_of_beside hbeside hlive
  have hold := h.live t hwas
  rw [hbeside.tentative]
  rcases hmove.commits_or_names with ⟨hnames, -⟩ | ⟨u, hcommits⟩
  · have hview : w'.store.backend.binding? t = w.store.backend.binding? t :=
      funext (Memory.binding?_congr hnames (congrArg WriteSet.names hwrites))
    rw [hnames, hview]
    exact hold
  · have hu := hlive.ne_of_commits hcommits
    refine hold.congr (p := fun name => ∃ mode, .accessed t (.name (.ofName name) mode) ∈ w.log)
      ((hsound.traced t).about) ?_ ?_ ?_
    · rintro name ⟨mode, haccess⟩
      exact hsound.names_of_accessed hcommits hu hwas.isOpen haccess
    · rintro name ⟨mode, haccess⟩
      exact hsound.binding?_of_accessed hcommits hu hwas.isOpen hwrites haccess
    · intro name hno
      refine Memory.binding?_of_not_written ?_
      rw [hwrites]
      by_contra hwritten
      exact hno ⟨_, (hsound.traced t).written name (Option.isSome_iff_ne_none.mpr hwritten)⟩

theorem liveStep {op : Operation} {stage stage' : Stage} {m m' : Memory} {before : Transcript}
    (hold : Replays m.names.get? (before ++ stage.transcript op) (m.binding? t))
    (hfits : stage.Fits op) (hserved : m.isShutDown = false)
    (hstep : Live.LiveStep t m stage stage' m') :
    Replays m'.names.get? (before ++ stage'.transcript op) (m'.binding? t) := by
  cases hstep with
  | allowed => exact hold
  | waits => exact hold
  | wakes => exact hold
  | fails => exact hold
  | @acts plan _ _ hacted =>
      have hnames : m'.names = m.names := hacted.names
      rcases hacted.transcript_cases hfits with
        ⟨name, hname, hpoint, hacts⟩ | ⟨hkeeps, hsame | ⟨hshut, -⟩⟩
      · have hbefore : (Stage.act plan).transcript op = [] := by
          unfold Stage.transcript
          rw [Stage.outcome?, plan.outcome?_of_point? hpoint]
        have hafter : stage'.transcript op = [(op, (op.effect (m.binding? t name)).1)] := by
          unfold Stage.transcript
          rw [hacts.outcome]
          exact finding_effect hname _
        rw [hbefore, List.append_nil] at hold
        rw [hafter, hnames, hacts.view]
        exact hold.concat hname
      · rw [hsame, hnames, funext (hkeeps.binding? t)]
        exact hold
      · exact absurd (hserved.symm.trans hshut) (by simp)

/-- Whatever a transaction does itself keeps it fitting in next, as long as it may yet commit. -/
theorem own (h : Explained w) (hsound : Sound w) (hown : w.OwnMove t w') (hlive : Live w' t) :
    Replays w'.store.backend.names.get? (tentative w'.calls w'.log t)
      (w'.store.backend.binding? t) := by
  cases hown with
  | begins hnew =>
      obtain ⟨hnothing, hview⟩ := hsound.nothing_of_unknown hnew
      show Replays _ (tentative w.calls w.log t) (w.store.backend.binding? t)
      rw [hnothing, hview]
      exact .nil _
  | starts hfree hknown hwounded hstage =>
      have hold := h.live t
        (Live.of_free hfree (hwounded.isOpen_of_isOpen hlive.isOpen) hlive.isServed)
      have hnothing := Traced.transcript_of_starts hstage
      show Replays _ (tentative (w.calls.insert t _) w.log t) _
      rw [tentative_insert hfree hnothing]
      exact hold
  | participates hfree =>
      show Replays _ (tentative (w.calls.insert t _) w.log t) _
      rw [tentative_insert hfree rfl]
      exact h.live t (Live.of_free hfree hlive.isOpen hlive.isServed)
  | operation hcall hstep =>
      obtain ⟨hwas, hlivestep⟩ := hlive.operation hsound hcall hstep
      have hold := h.live t hwas
      rw [tentative_of_operation hcall] at hold
      show Replays _ (tentative (w.calls.change t _) (w.log ++ _) t) _
      rw [tentative_step]
      exact liveStep hold ((hsound.traced t).fits _ _ hcall).1 hwas.isServed hlivestep
  | participation hcall hstep =>
      obtain ⟨hwas, hkeeps⟩ := hlive.participation hsound hcall hstep
      show Replays (Memory.names _).get? (tentative (w.calls.change t _) (w.log ++ _) t)
        (Memory.binding? _ t)
      rw [tentative_participantStep hcall, hkeeps.names, funext (hkeeps.binding? t)]
      exact h.live t hwas

/-- The transcripts of the committed transactions are the same after an action. -/
theorem flatMap_transcript (hsound : Sound w) (hmove : w.Move w') :
    (commits w.log).flatMap (transcript · w'.log) = (commits w.log).flatMap (transcript · w.log) :=
  List.flatMap_congr fun _ hin => hsound.transcript_of_mem_commits hmove hin

/-- **Every action keeps the committed names explained.** -/
theorem move (h : Explained w) (hsound : Sound w) (hmove : w.Move w') : Explained w' := by
  have hlive : ∀ t, Live w' t → Replays w'.store.backend.names.get?
      (tentative w'.calls w'.log t) (w'.store.backend.binding? t) := by
    intro t hlive
    rcases hmove.beside_or_own t with hbeside | hown
    · exact h.beside hsound hmove hbeside hlive
    · exact h.own hsound hown hlive
  have hfrozen := flatMap_transcript hsound hmove
  rcases hmove.commits_or_names with ⟨hnames, hcommits⟩ | ⟨t, hcommits⟩
  · refine ⟨?_, hlive, ?_⟩
    · rw [hcommits, hfrozen, hnames]
      exact h.history
    · rw [hcommits]
      exact h.nodup
  · obtain ⟨call, called, hcall, hnot⟩ := hcommits.before
    -- What the committing transaction was to leave is what it leaves.
    have hfits := h.live t (hsound.live_of_commits hcommits)
    rw [tentative_of_participation hcall] at hfits
    have hnames : w'.store.backend.names.get? = w.store.backend.binding? t :=
      funext hcommits.names
    have hlist : commits w'.log = commits w.log ++ [t] := by
      rw [hcommits.log, commits_append]
      rfl
    have hown : transcript t w'.log = transcript t w.log := by
      rw [hcommits.log, transcript_append]
      exact List.append_nil _
    refine ⟨?_, hlive, ?_⟩
    · rw [hlist, List.flatMap_append, hfrozen, List.flatMap_singleton, hown, hnames]
      exact h.history.append hfits
    · rw [hlist]
      refine List.nodup_append.mpr ⟨h.nodup, List.nodup_singleton t, ?_⟩
      intro u hu v hv huv
      rw [huv, List.mem_singleton.mp hv] at hu
      exact (hsound.consistent t).not_mem_commits hcall hnot hu

/-- **The committed names are explained at every moment of a run.** -/
theorem run (shards : Nat) (actions : List StoreAction) :
    Explained ((Traffic.new shards Memory.empty).run actions) := by
  have hboth : Sound ((Traffic.new shards Memory.empty).run actions) ∧
      Explained ((Traffic.new shards Memory.empty).run actions) :=
    run_induction (P := fun w => Sound w ∧ Explained w) ⟨.new shards, .new shards⟩
      (fun w a h => ⟨h.1.move (move_perform w a), h.2.move h.1 (move_perform w a)⟩) actions
  exact hboth.2

end Explained

end Traffic

end ObjectStore
