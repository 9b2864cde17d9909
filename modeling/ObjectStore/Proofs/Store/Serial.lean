/-
Every run is equivalent to one in which nothing overlaps.

The committed transactions of a run are run again on a new store, one after another in the order in
which they were committed.  They get the same answers, and leave the same names.

Both runs are explained by their transcripts, and the second is made to have the same operations in
the same order.  What operations answer is determined by where they start, which is where nothing is
bound.
-/
import ObjectStore.Proofs.Store.Alone

namespace ObjectStore

/-- The committed transactions of a log, one after another.  Each performs the operations that told
it something. -/
def serially (log : List Event) : List StoreAction :=
  (commits log).flatMap fun t => StoreAction.transactAlone t ((transcript t log).map Prod.fst)

/-- Parts of equal lengths can be read off the whole. -/
theorem eq_of_flatMap_eq {f g : TxnId → Transcript} {ts : List TxnId}
    (h : ts.flatMap f = ts.flatMap g) (hlength : ∀ t ∈ ts, (f t).length = (g t).length) :
    ∀ t ∈ ts, f t = g t := by
  induction ts with
  | nil => exact fun _ ht => absurd ht List.not_mem_nil
  | cons u rest ih =>
      rw [List.flatMap_cons, List.flatMap_cons] at h
      obtain ⟨hhead, htail⟩ := List.append_inj h (hlength u List.mem_cons_self)
      intro t ht
      rcases List.mem_cons.mp ht with rfl | hin
      · exact hhead
      · exact ih htail (fun t' ht' => hlength t' (List.mem_cons_of_mem u ht')) t hin

namespace Traffic

variable {w : LockingTraffic Memory} {t : TxnId}

theorem Sound.run_from (h : Sound w) (actions : List StoreAction) : Sound (w.run actions) :=
  run_induction h (fun _ a hw => hw.move (move_perform _ a)) actions

theorem begin_alone (hunlocked : Unlocked w.store) (hnew : w.store.register.isKnown t = false) :
    Alone (w.perform (.begin t ⟨0, 0⟩ 0)).store t ∧
      (w.perform (.begin t ⟨0, 0⟩ 0)).calls = w.calls ∧
        (w.perform (.begin t ⟨0, 0⟩ 0)).log = w.log ∧
          ∀ u, (w.perform (.begin t ⟨0, 0⟩ 0)).store.register.isKnown u = true →
            t = u ∨ w.store.register.isKnown u = true := by
  have hbegun : w.perform (.begin t ⟨0, 0⟩ 0) = { w with store := w.store.begin t ⟨0, 0⟩ 0 } := by
    unfold perform
    simp only
    rw [if_neg]
    exact Bool.not_eq_true _ ▸ hnew
  have hdistinct : w.store.names.table.Distinct := by
    intro key
    rw [hunlocked.requests key]
    exact List.nodup_nil
  have hmine : ∀ key, ∀ e ∈ w.store.names.table.requests key, e.owner = t := by
    intro key e he
    rw [hunlocked.requests key] at he
    exact absurd he List.not_mem_nil
  rw [hbegun]
  exact ⟨⟨Register.find_start_self _ _, (Register.isKnown_start _ _).mpr (Or.inl rfl), hdistinct,
    hmine, hunlocked.isServed⟩, rfl, rfl, fun u => (Register.isKnown_start _ _).mp⟩

/-- A transaction that nobody disturbs performs its operations, is committed, and leaves no lock. -/
theorem transact_alone {ops : List Operation} (hsound : Sound w) (hunlocked : Unlocked w.store)
    (hnew : w.store.register.isKnown t = false) (hnames : ∀ op ∈ ops, op.name?.isSome = true) :
    ∃ events, (w.run (StoreAction.transactAlone t ops)).log = w.log ++ events ∧
      (transcript t events).map Prod.fst = ops ∧ (∀ u, t ≠ u → transcript u events = []) ∧
        commits events = [t] ∧ Unlocked (w.run (StoreAction.transactAlone t ops)).store ∧
          ∀ u, (w.run (StoreAction.transactAlone t ops)).store.register.isKnown u = true →
            t = u ∨ w.store.register.isKnown u = true := by
  have hfree : w.calls.get? t = none := by
    by_contra hcall
    obtain ⟨call, hcall⟩ := Option.ne_none_iff_exists'.mp hcall
    rw [hsound.retains.orderly.called t call hcall] at hnew
    exact absurd hnew (by simp)
  obtain ⟨halone, hcalls, hlog, hknown⟩ := begin_alone hunlocked hnew
  unfold StoreAction.transactAlone
  rw [run_cons, run_append]
  generalize w.perform (.begin t ⟨0, 0⟩ 0) = w₁ at halone hcalls hlog hknown ⊢
  obtain ⟨events, hwithin, halone', hfree', hlearned, hnone⟩ :=
    operate_each_alone ops hnames halone (hcalls ▸ hfree)
  obtain ⟨events', hwithin', hnothing, hcommitted, hunlocked'⟩ := commit_alone halone' hfree'
  have hall := hwithin.trans hwithin'
  refine ⟨events ++ events', ?_, ?_, hall.others, ?_, hunlocked',
    fun u hu => hknown u (hall.known u hu)⟩
  · rw [hall.log, hlog]
  · rw [transcript_append, hnothing, List.append_nil, hlearned]
  · rw [commits_append, hnone, hcommitted]
    rfl

/-- New transactions one after another are committed in this order, each with its own operations. -/
theorem transact_each_alone (ops : TxnId → List Operation) (ts : List TxnId) :
    ∀ {w : LockingTraffic Memory}, Sound w → Unlocked w.store → ts.Nodup →
      (∀ t ∈ ts, w.store.register.isKnown t = false) →
      (∀ t ∈ ts, ∀ op ∈ ops t, op.name?.isSome = true) →
      ∃ events, (w.run (ts.flatMap fun t => StoreAction.transactAlone t (ops t))).log =
          w.log ++ events ∧
        commits events = ts ∧ (∀ t ∈ ts, (transcript t events).map Prod.fst = ops t) ∧
          ∀ u, u ∉ ts → transcript u events = [] := by
  induction ts with
  | nil =>
      intro w _ _ _ _ _
      exact ⟨[], (List.append_nil _).symm, rfl, fun _ ht => absurd ht List.not_mem_nil,
        fun _ _ => rfl⟩
  | cons t rest ih =>
      intro w hsound hunlocked hnodup hnew hnames
      obtain ⟨hnotin, hnodup'⟩ := List.nodup_cons.mp hnodup
      obtain ⟨events, hlog, hlearned, hothers, hcommitted, hunlocked', hknown⟩ :=
        transact_alone hsound hunlocked (hnew t List.mem_cons_self) (hnames t List.mem_cons_self)
      have hnew' : ∀ u ∈ rest,
          (w.run (StoreAction.transactAlone t (ops t))).store.register.isKnown u = false := by
        intro u hu
        by_contra hc
        rcases hknown u (Bool.of_not_eq_false hc) with rfl | hwas
        · exact hnotin hu
        · rw [hnew u (List.mem_cons_of_mem t hu)] at hwas
          exact absurd hwas (by simp)
      obtain ⟨events', hlog', hcommitted', hlearned', hothers'⟩ :=
        ih (hsound.run_from _) hunlocked' hnodup' hnew'
          (fun u hu => hnames u (List.mem_cons_of_mem t hu))
      rw [List.flatMap_cons, run_append]
      refine ⟨events ++ events', ?_, ?_, ?_, ?_⟩
      · rw [hlog', hlog, List.append_assoc]
      · rw [commits_append, hcommitted, hcommitted']
        rfl
      · intro u hu
        rw [transcript_append]
        by_cases htu : t = u
        · rw [← htu, hothers' t hnotin, List.append_nil, hlearned]
        · rw [hothers u htu, List.nil_append]
          exact hlearned' u ((List.mem_cons.mp hu).resolve_left (Ne.symm htu))
      · intro u hu
        rw [transcript_append, hothers u (fun htu => hu (htu ▸ List.mem_cons_self)),
          hothers' u (fun hin => hu (List.mem_cons_of_mem t hin))]
        rfl

/--
**Commit-order serializability.**  Running the committed transactions of any run again on a new
store, one after another in the order in which they were committed, gives every one of them the same
answers, and leaves the same names.
-/
theorem serializable (shards : Nat) (actions : List StoreAction) :
    let w := (new shards Memory.empty).run actions
    let s := (new shards Memory.empty).run (serially w.log)
    (∀ t, w.store.register.stateOf t = .committed → t ∈ commits w.log) ∧
      (commits w.log).Nodup ∧ commits s.log = commits w.log ∧
        (∀ t ∈ commits w.log, transcript t s.log = transcript t w.log) ∧
          ∀ name, s.store.backend.names.get? name = w.store.backend.names.get? name := by
  intro w s
  have hsound : Sound w := Sound.run shards actions
  have hw : Explained w := Explained.run shards actions
  have hs : Explained s := Explained.run shards (serially w.log)
  have hunlocked : Unlocked (new shards Memory.empty).store := by
    refine ⟨fun key => ?_, rfl⟩
    show (LockTable.ofShards shards : LockTable NameKey TxnId).requests key = []
    unfold LockTable.requests
    rw [LockTable.entries_ofShards]
    rfl
  have hnames : ∀ t ∈ commits w.log, ∀ op ∈ (transcript t w.log).map Prod.fst,
      op.name?.isSome = true := by
    intro t _ op hop
    obtain ⟨entry, hentry, rfl⟩ := List.mem_map.mp hop
    exact @isSome_name?_of_mem_tentative w.calls w.log t entry (List.mem_append_left _ hentry)
  obtain ⟨events, hlog, hcommitted, hops, -⟩ :=
    transact_each_alone (fun t => (transcript t w.log).map Prod.fst) (commits w.log)
      (Sound.new shards) hunlocked hw.nodup (fun _ _ => rfl) hnames
  have hlog' : s.log = events := hlog
  -- Both histories start from no names, and their operations are the same.
  have hcommits : commits s.log = commits w.log := by
    rw [hlog', hcommitted]
  have hhistory := hs.history
  rw [hcommits] at hhistory
  have hsame : ∀ t ∈ commits w.log,
      (transcript t s.log).map Prod.fst = (transcript t w.log).map Prod.fst := by
    rw [hlog']
    exact hops
  have hallops : ((commits w.log).flatMap (transcript · s.log)).map Prod.fst =
      ((commits w.log).flatMap (transcript · w.log)).map Prod.fst := by
    rw [List.map_flatMap, List.map_flatMap]
    exact List.flatMap_congr hsame
  obtain ⟨htranscripts, hleft⟩ := hhistory.unique hw.history hallops
  refine ⟨fun t => (hsound.consistent t).logged, hw.nodup, hcommits, ?_,
    fun name => congrFun hleft name⟩
  refine eq_of_flatMap_eq htranscripts fun t ht => ?_
  have hlength := congrArg List.length (hsame t ht)
  rwa [List.length_map, List.length_map] at hlength

end Traffic

end ObjectStore
