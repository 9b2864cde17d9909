/-
The life of an object.

An object begins with the commit of the transaction that has made it, and ends with the commit of one
that has removed it.  Whoever marks, gets or removes an object has to see it.  Whoever sets one has
not: any number will do that has been given out, whether the object is still to come, has gone, or
will never be, because its maker was aborted.  `Conjures` finds a set of an object that its
transaction did not see.

Where no committed transaction conjures an object, its first contents were committed by its maker:
whoever else has filled it saw it before, either what was committed of it or what they had themselves
made.  And once it has been removed nobody fills it again: they would have to have seen it before the
removal was committed, and to have been allowed to write it while the remover was.
-/
import ObjectStore.Proofs.Store.Numbering

namespace ObjectStore

namespace Write

variable {oid : ObjectId} {before : Option Bytes} {writes : List Write}

/-- Writes that give an object no contents leave it none but what it had. -/
theorem isSome_of_objectAfter (h : (objectAfter oid before writes).isSome = true)
    (hno : ∀ data, .object oid (some data) ∉ writes) : before.isSome = true := by
  rcases objectAfter_cases oid writes with ⟨-, hsame⟩ | ⟨data, hin, hfixed⟩
  · rwa [hsame] at h
  · rw [hfixed] at h
    obtain ⟨d, rfl⟩ := Option.isSome_iff_exists.mp h
    exact absurd hin (hno d)

theorem objectAfter_removal (oid : ObjectId) (before : Option Bytes) (writes : List Write) :
    objectAfter oid before (.object oid none :: writes) = objectAfter oid none writes := by
  simp [objectAfter, object?]

theorem exists_of_objectAfter (h : (objectAfter oid none writes).isSome = true) :
    ∃ data, .object oid (some data) ∈ writes := by
  by_contra hno
  exact absurd (isSome_of_objectAfter h fun data hin => hno ⟨data, hin⟩) (by simp)

end Write

namespace Traffic

variable {log log' : List Event} {t u v : TxnId} {oid : ObjectId}

/-- The object is there in what has been committed. -/
def Stands (log : List Event) (oid : ObjectId) : Prop :=
  (Write.objectAfter oid none (settled log)).isSome = true

/-- A transaction has given the object contents. -/
def Fills (log : List Event) (t : TxnId) (oid : ObjectId) : Prop :=
  ∃ data, .object oid (some data) ∈ ledger t log

/-- A transaction has set the object, alone or in a batch, at a moment at which it did not see it. -/
def Conjures (log : List Event) (t : TxnId) (oid : ObjectId) : Prop :=
  ∃ before op result data rest, log = before ++ .answered t op result :: rest ∧
    .object oid (some data) ∈ op.writes result ∧ op ≠ .create ∧ seenIn before t oid = none

/-- A transaction has removed the object. -/
def Removed (log : List Event) (t : TxnId) (oid : ObjectId) : Prop :=
  .answered t (.remove oid) (.ok .done) ∈ log

theorem Conjures.append (h : Conjures log t oid) (log' : List Event) :
    Conjures (log ++ log') t oid := by
  obtain ⟨before, op, result, data, rest, rfl, hconjures⟩ := h
  exact ⟨before, op, result, data, rest ++ log', by simp, hconjures⟩

/-- Nobody who is committed conjures the object, and no number is given out twice. -/
structure Proper (log : List Event) (oid : ObjectId) : Prop where
  sees : ∀ t ∈ commits log, ¬ Conjures log t oid
  nodup : (creations log).Nodup

theorem Proper.of_append (h : Proper (log ++ log') oid) : Proper log oid where
  sees := fun t ht hconjures =>
    h.sees t (mem_commits_append.mpr (Or.inl ht)) (hconjures.append log')
  nodup := by
    have hnodup := h.nodup
    rw [creations_append] at hnodup
    exact (List.nodup_append.mp hnodup).1

theorem mem_of_mem_commits (h : t ∈ commits log) : .committed t ∈ log := by
  obtain ⟨event, hevent, hcommitter⟩ := List.mem_filterMap.mp h
  cases event <;> cases hcommitter
  exact hevent

/-! ### Who has filled an object -/

theorem mem_ledger_singleton {e : Event} {x : Write} (h : x ∈ ledger t [e]) :
    ∃ op result, e = .answered t op result ∧ x ∈ op.writes result := by
  obtain ⟨e', he', hx⟩ := List.mem_flatMap.mp h
  obtain rfl := List.mem_singleton.mp he'
  cases e' with
  | answered v op result =>
      simp only [Event.gathered] at hx
      split at hx
      · rename_i hv
        exact ⟨op, result, by rw [hv], hx⟩
      · exact absurd hx List.not_mem_nil
  | _ => exact absurd hx List.not_mem_nil

/-- Whoever has filled an object has done so a first time. -/
theorem Fills.exists_first (h : Fills log t oid) :
    ∃ before op result data rest, log = before ++ .answered t op result :: rest ∧
      .object oid (some data) ∈ op.writes result ∧ ¬ Fills before t oid := by
  induction log using List.reverseRecOn with
  | nil =>
      obtain ⟨data, hin⟩ := h
      exact absurd hin List.not_mem_nil
  | append_singleton log e ih =>
      by_cases hold : Fills log t oid
      · obtain ⟨before, op, result, data, rest, rfl, hfirst⟩ := ih hold
        exact ⟨before, op, result, data, rest ++ [e], by simp, hfirst⟩
      · obtain ⟨data, hin⟩ := h
        rw [ledger_append] at hin
        rcases List.mem_append.mp hin with hearly | hnew
        · exact absurd ⟨data, hearly⟩ hold
        · obtain ⟨op, result, rfl, hwrite⟩ := mem_ledger_singleton hnew
          exact ⟨log, op, result, data, [], rfl, hwrite, hold⟩

/-- What a transaction sees that it has not filled is committed. -/
theorem stands_of_seenIn (h : (seenIn log t oid).isSome = true) (hno : ¬ Fills log t oid) :
    Stands log oid := by
  unfold seenIn at h
  rw [Write.objectAfter_append] at h
  exact Write.isSome_of_objectAfter h fun data hin => hno ⟨data, hin⟩

/-- Whoever has filled an object without conjuring it has made it, or has named it when it was
committed already. -/
theorem Fills.made_or_stood (h : Fills log t oid) (hsees : ¬ Conjures log t oid) :
    Created log t oid ∨ ∃ before op result rest, log = before ++ .answered t op result :: rest ∧
      .object oid .write ∈ op.objectAccesses ∧ isInData result = true ∧ Stands before oid := by
  obtain ⟨before, op, result, data, rest, rfl, hwrite, hfirst⟩ := h.exists_first
  rcases Operation.mem_writes hwrite with ⟨⟨rfl, rfl⟩, -⟩ | ⟨haccess, hdata⟩
  · exact Or.inl (List.mem_append_right _ List.mem_cons_self)
  · refine Or.inr ⟨before, op, result, rest, rfl, haccess, hdata, stands_of_seenIn ?_ hfirst⟩
    by_contra hunseen
    refine hsees ⟨before, op, result, data, rest, rfl, hwrite, ?_, ?_⟩
    · rintro rfl
      exact absurd haccess List.not_mem_nil
    · simpa using hunseen

/-- **An object that is committed was made by a transaction that is committed.** -/
theorem exists_maker (hproper : Proper log oid) (h : Stands log oid) :
    ∃ u ∈ commits log, Created log u oid := by
  -- Whoever has not made what they have filled saw it in a shorter log.
  induction hlength : log.length using Nat.strong_induction_on generalizing log with
  | h n ih =>
      obtain ⟨data, hin⟩ := Write.exists_of_objectAfter h
      obtain ⟨u, hu, hwrite⟩ := List.mem_flatMap.mp hin
      rcases Fills.made_or_stood ⟨data, hwrite⟩ (hproper.sees u hu) with
        hmade | ⟨before, op, result, rest, rfl, -, -, hstood⟩
      · exact ⟨u, hu, hmade⟩
      · have hshorter : before.length < n := by
          rw [← hlength, List.length_append, List.length_cons]
          omega
        obtain ⟨v, hv, hmade⟩ := ih before.length hshorter hproper.of_append hstood rfl
        exact ⟨v, mem_commits_append.mpr (Or.inl hv), hmade.append _⟩

theorem exists_maker_of_seenIn (hproper : Proper log oid) (hself : ¬ Conjures log t oid)
    (h : (seenIn log t oid).isSome = true) :
    ∃ u, (u = t ∨ u ∈ commits log) ∧ Created log u oid := by
  have hstood : ∀ {before rest}, log = before ++ rest → Stands before oid →
      ∃ u, (u = t ∨ u ∈ commits log) ∧ Created log u oid := by
    rintro before rest rfl hstands
    obtain ⟨u, hu, hmade⟩ := exists_maker hproper.of_append hstands
    exact ⟨u, Or.inr (mem_commits_append.mpr (Or.inl hu)), hmade.append rest⟩
  by_cases hfills : Fills log t oid
  · rcases hfills.made_or_stood hself with hmade | ⟨before, op, result, rest, heq, -, -, hstands⟩
    · exact ⟨t, Or.inl rfl, hmade⟩
    · exact hstood heq hstands
  · exact hstood (List.append_nil log).symm (stands_of_seenIn h hfills)

/-! ### What a removal leaves -/

theorem ledger_removal (before rest : List Event) (t : TxnId) (oid : ObjectId) :
    ledger t (before ++ .answered t (.remove oid) (.ok .done) :: rest) =
      ledger t before ++ .object oid none :: ledger t rest := by
  rw [ledger_append]
  refine congrArg (ledger t before ++ ·) ?_
  simp [ledger, gathered, Event.gathered, Operation.writes]

section Removals

variable {shards : Nat} {actions : List StoreAction} {before between after rest : List Event}

/-- What has led to an earlier part of a proper log is a run too, and proper. -/
theorem Proper.exists_earlier {e : Event}
    (hproper : Proper ((Traffic.new shards Memory.empty).run actions).log oid)
    (hlog : ((Traffic.new shards Memory.empty).run actions).log = before ++ e :: rest) :
    ∃ actions', ((Traffic.new shards Memory.empty).run actions').log = before ∧
      Proper ((Traffic.new shards Memory.empty).run actions').log oid := by
  obtain ⟨actions', -, -, rfl, -⟩ := exists_moment hlog
  rw [hlog] at hproper
  exact ⟨actions', rfl, hproper.of_append⟩

theorem seenIn_of_remove {reply : Reply}
    (hlog : ((Traffic.new shards Memory.empty).run actions).log =
      before ++ .answered t (.remove oid) (.ok reply) :: rest) :
    (seenIn before t oid).isSome = true := by
  obtain ⟨actions', a, -, rfl, hafter⟩ := exists_moment hlog
  rw [run_concat] at hafter
  have hsound := Sound.run shards actions'
  have haccounted := Accounted.run shards actions' t
  obtain ⟨stage, store, hcall, hstep⟩ := (move_perform _ a).answers hafter
  rcases hstep.ended_cases with ⟨plan, backend, rfl, hact⟩ | ⟨e, -, heq⟩
  · obtain rfl := plan.eq_of_onePlan? rfl (haccounted.serves _ _ hcall)
      ((hsound.traced t).fits _ _ hcall).1
    rcases callThen_cases hact with ⟨a, hperform, -⟩ | ⟨e, -, hstage⟩
    · cases hshut : ((Traffic.new shards Memory.empty).run actions').store.backend.isShutDown with
      | true =>
          rw [Memory.perform_of_isShutDown hshut rfl] at hperform
          cases hperform
      | false =>
          rw [← seenIn_of_act (Settled.run shards actions') haccounted hcall rfl hshut oid]
          rw [Memory.perform_of_open hshut] at hperform
          simp only [Memory.performOpen, Memory.remove, Memory.require] at hperform
          cases hobject : Memory.object? _ t oid with
          | some data => rfl
          | none =>
              rw [hobject] at hperform
              cases hperform
    · cases hstage
  · cases heq

/-- Whoever has made an object that is removed was there before, and is the remover or committed. -/
theorem exists_maker_of_removed
    (hlog : ((Traffic.new shards Memory.empty).run actions).log =
      before ++ .answered u (.remove oid) (.ok .done) :: rest)
    (hproper : Proper ((Traffic.new shards Memory.empty).run actions).log oid)
    (hcommitted : u ∈ commits ((Traffic.new shards Memory.empty).run actions).log) :
    ∃ maker, (maker = u ∨ maker ∈ commits before) ∧ Created before maker oid := by
  have hself := hproper.sees u hcommitted
  rw [hlog] at hproper hself
  exact exists_maker_of_seenIn hproper.of_append
    (fun hconjures => hself (hconjures.append _)) (seenIn_of_remove hlog)

/-- The remover does not fill the object again. -/
theorem objectAfter_ledger_of_removed
    (hlog : ((Traffic.new shards Memory.empty).run actions).log =
      before ++ .answered u (.remove oid) (.ok .done) :: rest)
    (hproper : Proper ((Traffic.new shards Memory.empty).run actions).log oid)
    (hcommitted : u ∈ commits ((Traffic.new shards Memory.empty).run actions).log)
    (value : Option Bytes) :
    Write.objectAfter oid value (ledger u ((Traffic.new shards Memory.empty).run actions).log) =
      none := by
  -- What the remover sees of the object, once it is removed, can only be what it has filled since.
  have hgone : ∀ {value : Option Bytes} {events : List Event}, (Write.objectAfter oid value
      (ledger u (before ++ .answered u (.remove oid) (.ok .done) :: events))).isSome = true →
      Fills events u oid := by
    intro value events hsome
    rw [ledger_removal, Write.objectAfter_append, Write.objectAfter_removal] at hsome
    exact Write.exists_of_objectAfter hsome
  have hnot : ¬ Fills rest u oid := by
    intro hfills
    obtain ⟨middle, op, result, data, last, rfl, hwrite, hfirst⟩ := hfills.exists_first
    rcases Operation.mem_writes hwrite with ⟨⟨rfl, rfl⟩, -⟩ | ⟨haccess, -⟩
    · obtain ⟨maker, -, hmade⟩ := exists_maker_of_removed hlog hproper hcommitted
      have hnodup := hproper.nodup
      rw [hlog] at hnodup
      refine hmade.not_created (v := u) hnodup ?_
      exact List.mem_cons_of_mem _ (List.mem_append_right _ List.mem_cons_self)
    · refine hproper.sees u hcommitted ⟨before ++ .answered u (.remove oid) (.ok .done) :: middle, op,
        result, data, last, by rw [hlog, List.append_assoc, List.cons_append], hwrite, ?_, ?_⟩
      · rintro rfl
        exact absurd haccess List.not_mem_nil
      · by_contra hseen
        unfold seenIn at hseen
        rw [Write.objectAfter_append] at hseen
        exact hfirst (hgone (Option.isSome_iff_ne_none.mpr hseen))
  rw [hlog]
  by_contra hsome
  exact hnot (hgone (Option.isSome_iff_ne_none.mpr hsome))

/-- Whoever has been told of an object had been allowed to access it. -/
theorem accessed_of_answered {op : Operation} {result : Except StoreError Reply} {access : Access}
    (hlog : ((Traffic.new shards Memory.empty).run actions).log =
      before ++ .answered t op result :: rest)
    (hdata : isInData result = true) (hneeded : access ∈ op.objectAccesses) :
    .accessed t access ∈ before := by
  obtain ⟨actions', a, -, -, hafter⟩ := exists_moment hlog
  have hcovered := (Covered.run shards (actions' ++ [a]) t).answered op result
    (by rw [hafter]; simp) hdata access hneeded
  rw [hafter] at hcovered
  exact (List.mem_append.mp hcovered).resolve_right (by simp)

/-- Nobody who commits after the removal has been allowed to write the object before it was
committed. -/
theorem not_accessed_of_removed
    (hlog : ((Traffic.new shards Memory.empty).run actions).log = before ++ .committed u :: after)
    (hremoved : Removed before u oid) (hin : v ∈ commits after) (hne : v ≠ u) :
    .accessed v (.object oid .write) ∉ before := by
  intro haccess
  obtain ⟨middle, last, rfl⟩ := List.append_of_mem (mem_of_mem_commits hin)
  rw [← List.cons_append, ← List.append_assoc] at hlog
  obtain ⟨actions', -, hmoment, hlive⟩ := exists_commit hlog
  have hwrite : .object oid none ∈ ledger u (before ++ .committed u :: middle ++ []) := by
    obtain ⟨before', between, rfl⟩ := List.append_of_mem hremoved
    rw [List.append_nil, List.append_assoc, List.cons_append, ledger_removal]
    simp
  have hempty := (created_of_commits (hmoment.trans (List.append_nil _).symm) haccess hlive.isOpen
    hne.symm List.mem_cons_self hwrite).2
  cases hempty

/-- Those who commit before and after a transaction, which commits once, as they do. -/
theorem commits_of_committed
    (hlog : ((Traffic.new shards Memory.empty).run actions).log = before ++ .committed u :: after) :
    commits ((Traffic.new shards Memory.empty).run actions).log =
        commits before ++ u :: commits after ∧
      ∀ v ∈ commits after, v ≠ u ∧ v ∉ commits before := by
  have hcommits : commits ((Traffic.new shards Memory.empty).run actions).log =
      commits before ++ u :: commits after := by
    rw [hlog, commits_append]
    rfl
  refine ⟨hcommits, fun v hv => ?_⟩
  have honce := (Explained.run shards actions).nodup
  rw [hcommits] at honce
  obtain ⟨-, honce, hdisjoint⟩ := List.nodup_append.mp honce
  refine ⟨?_, fun hearly => hdisjoint v hearly v (List.mem_cons_of_mem _ hv) rfl⟩
  rintro rfl
  exact (List.nodup_cons.mp honce).1 hv

/-- A transaction that the removal has nothing to do with: it is neither the remover nor committed
before, and it had not been allowed to write the object by then. -/
structure Outside (log : List Event) (u v : TxnId) (oid : ObjectId) : Prop where
  ne : v ≠ u
  not_mem_commits : v ∉ commits log
  not_accessed : .accessed v (.object oid .write) ∉ log

/-- Nobody else fills the object after the removal, if it was not committed again. -/
theorem Outside.not_fills
    (hv : Outside (before ++ .answered u (.remove oid) (.ok .done) :: between) u v oid)
    (hlog : ((Traffic.new shards Memory.empty).run actions).log =
      before ++ .answered u (.remove oid) (.ok .done) :: between ++ .committed u :: after)
    (hproper : Proper ((Traffic.new shards Memory.empty).run actions).log oid)
    (hself : ¬ Conjures ((Traffic.new shards Memory.empty).run actions).log v oid)
    (hgone : ∀ after' e rest, after = after' ++ e :: rest → ¬ Stands (before ++
      .answered u (.remove oid) (.ok .done) :: between ++ .committed u :: after') oid) :
    ¬ Fills ((Traffic.new shards Memory.empty).run actions).log v oid := by
  intro hfills
  rcases hfills.made_or_stood hself with
    hmade | ⟨seen, op, result, rest, hsplit, haccess, hdata, hstood⟩
  · have hu : u ∈ commits ((Traffic.new shards Memory.empty).run actions).log := by
      rw [(commits_of_committed hlog).1]
      exact List.mem_append_right _ List.mem_cons_self
    have hremoved := hlog
    rw [List.append_assoc, List.cons_append] at hremoved
    obtain ⟨maker, hmaker, hmade'⟩ := exists_maker_of_removed hremoved hproper hu
    rw [hremoved] at hmade hproper
    obtain rfl := (hmade'.append _).eq_of_created hmade hproper.nodup
    rcases hmaker with rfl | hearly
    · exact hv.ne rfl
    · exact hv.not_mem_commits (mem_commits_append.mpr (Or.inl hearly))
  · rcases append_eq_append_cons (hsplit.symm.trans hlog) with
      ⟨after', rfl, hrest⟩ | ⟨before', hbefore, -⟩
    · exact hgone after' _ rest hrest hstood
    · refine hv.not_accessed ?_
      rw [hbefore]
      exact List.mem_append_left _ (accessed_of_answered hsplit hdata haccess)

/-- **An object that has been removed is not committed again.** -/
theorem not_stands_of_removed
    (hlog : ((Traffic.new shards Memory.empty).run actions).log =
      before ++ .answered u (.remove oid) (.ok .done) :: between ++ .committed u :: after)
    (hproper : Proper ((Traffic.new shards Memory.empty).run actions).log oid) :
    ¬ Stands ((Traffic.new shards Memory.empty).run actions).log oid := by
  -- Whoever fills the object after the removal saw it at a moment between.
  induction hlength : after.length using Nat.strong_induction_on generalizing actions after with
  | h n ih =>
      have hgone : ∀ after' e rest, after = after' ++ e :: rest → ¬ Stands (before ++
          .answered u (.remove oid) (.ok .done) :: between ++ .committed u :: after') oid := by
        rintro after' e rest rfl
        rw [← List.cons_append, ← List.append_assoc] at hlog
        obtain ⟨actions', hmoment, hproper'⟩ := hproper.exists_earlier hlog
        have hshorter : after'.length < n := by
          rw [← hlength, List.length_append, List.length_cons]
          omega
        rw [← hmoment]
        exact ih after'.length hshorter hmoment hproper' rfl
      obtain ⟨hcommits, hlater⟩ := commits_of_committed hlog
      have hu : u ∈ commits ((Traffic.new shards Memory.empty).run actions).log := by
        rw [hcommits]
        exact List.mem_append_right _ List.mem_cons_self
      have hremoved := hlog
      rw [List.append_assoc, List.cons_append] at hremoved
      intro hstands
      unfold Stands settled at hstands
      rw [hcommits, List.flatMap_append, List.flatMap_cons, Write.objectAfter_append,
        Write.objectAfter_append, objectAfter_ledger_of_removed hremoved hproper hu] at hstands
      refine absurd (Write.isSome_of_objectAfter hstands fun data hin => ?_) (by simp)
      obtain ⟨v, hv, hwrite⟩ := List.mem_flatMap.mp hin
      have houtside : Outside (before ++ .answered u (.remove oid) (.ok .done) :: between) u v oid :=
        { ne := (hlater v hv).1
          not_mem_commits := (hlater v hv).2
          not_accessed := not_accessed_of_removed hlog (List.mem_append_right _ List.mem_cons_self)
            hv (hlater v hv).1 }
      have hself : ¬ Conjures ((Traffic.new shards Memory.empty).run actions).log v oid := by
        refine hproper.sees v ?_
        rw [hcommits]
        exact List.mem_append_right _ (List.mem_cons_of_mem _ hv)
      exact houtside.not_fills hlog hproper hself hgone ⟨data, hwrite⟩

/-- Nor is it seen again by those who come later. -/
theorem Outside.seenIn_eq_none
    (hv : Outside (before ++ .answered u (.remove oid) (.ok .done) :: between) u v oid)
    (hlog : ((Traffic.new shards Memory.empty).run actions).log =
      before ++ .answered u (.remove oid) (.ok .done) :: between ++ .committed u :: after)
    (hproper : Proper ((Traffic.new shards Memory.empty).run actions).log oid)
    (hself : ¬ Conjures ((Traffic.new shards Memory.empty).run actions).log v oid) :
    seenIn ((Traffic.new shards Memory.empty).run actions).log v oid = none := by
  have hgone : ∀ after' e rest, after = after' ++ e :: rest → ¬ Stands (before ++
      .answered u (.remove oid) (.ok .done) :: between ++ .committed u :: after') oid := by
    rintro after' e rest rfl
    rw [← List.cons_append, ← List.append_assoc] at hlog
    obtain ⟨actions', hmoment, hproper'⟩ := hproper.exists_earlier hlog
    rw [← hmoment]
    exact not_stands_of_removed hmoment hproper'
  by_contra hseen
  exact not_stands_of_removed hlog hproper (stands_of_seenIn (Option.isSome_iff_ne_none.mpr hseen)
    (hv.not_fills hlog hproper hself hgone))

/-- Nor are they told of it. -/
theorem Outside.not_told
    (hv : Outside (before ++ .answered u (.remove oid) (.ok .done) :: between) u v oid)
    (hlog : ((Traffic.new shards Memory.empty).run actions).log =
      before ++ .answered u (.remove oid) (.ok .done) :: between ++ .committed u :: after)
    (hproper : Proper ((Traffic.new shards Memory.empty).run actions).log oid)
    (hself : ¬ Conjures ((Traffic.new shards Memory.empty).run actions).log v oid)
    (forUpdate : Bool) (d : Bytes) : .answered v (.get oid forUpdate) (.ok (.data d)) ∉ after := by
  intro hin
  obtain ⟨middle, rest, rfl⟩ := List.append_of_mem hin
  rw [← List.cons_append, ← List.append_assoc] at hlog
  obtain ⟨actions', hmoment, hproper'⟩ := hproper.exists_earlier hlog
  have hself' : ¬ Conjures ((Traffic.new shards Memory.empty).run actions').log v oid := by
    intro hconjures
    rw [hmoment] at hconjures
    rw [hlog] at hself
    exact hself (hconjures.append _)
  have hunseen := hv.seenIn_eq_none hmoment hproper' hself'
  rw [hmoment, seenIn_of_get hlog] at hunseen
  cases hunseen

/-- Whoever has removed an object, and is committed, had removed it before. -/
theorem exists_removal
    (hin : u ∈ commits ((Traffic.new shards Memory.empty).run actions).log)
    (hremoved : Removed ((Traffic.new shards Memory.empty).run actions).log u oid) :
    ∃ before between after, ((Traffic.new shards Memory.empty).run actions).log =
      before ++ .answered u (.remove oid) (.ok .done) :: between ++ .committed u :: after := by
  obtain ⟨part, after, hlog⟩ := List.append_of_mem (mem_of_mem_commits hin)
  have hcommitted : u ∈ commits (part ++ [.committed u]) :=
    mem_commits_append.mpr (Or.inr (List.mem_singleton_self u))
  -- What is answered to a transaction that is committed tells of no write.
  have hnot : ¬ Removed after u oid := by
    intro hlate
    obtain ⟨part', after', rfl⟩ := List.append_of_mem hlate
    have hnothing := ledger_of_committed (hlog.trans (List.append_cons _ _ _)) hcommitted
    rw [ledger_removal] at hnothing
    simp at hnothing
  rw [hlog] at hremoved
  rcases List.mem_append.mp hremoved with hearly | hlate
  · obtain ⟨before, between, rfl⟩ := List.append_of_mem hearly
    exact ⟨before, between, after, hlog⟩
  · exact absurd (List.mem_of_ne_of_mem (by simp) hlate) hnot

end Removals

/-! ### A life -/

section Life

variable {shards : Nat} {actions later : List StoreAction} {w : LockingTraffic Memory}

theorem known_of_mem_commits (hsound : Sound w) (h : t ∈ commits w.log) :
    w.store.register.isKnown t = true := by
  rcases (hsound.consistent t).committed h with hcommitted | ⟨call, reply, hcall⟩
  · by_contra hnew
    rw [Register.stateOf_of_unknown (Bool.eq_false_iff.mpr hnew)] at hcommitted
    cases hcommitted
  · exact hsound.retains.orderly.called t _ hcall

theorem not_mem_commits_of_aborted (hsound : Sound w) (h : w.store.register.stateOf t = .aborted) :
    t ∉ commits w.log := by
  intro hin
  rcases (hsound.consistent t).committed hin with hcommitted | ⟨call, reply, hcall⟩
  · rw [h] at hcommitted
    cases hcommitted
  · have hprepared := ((hsound.consistent t).following call reply hcall).2
    rw [h] at hprepared
    cases hprepared

/-- Whoever has not begun by the commit of the removal has nothing to do with it. -/
theorem outside_of_unknown {before after : List Event} (hsound : Sound w)
    (hlog : w.log = before ++ .committed u :: after)
    (hnew : w.store.register.isKnown t = false) : Outside before u t oid := by
  have hknown : ∀ {v}, v ∈ commits w.log → t ≠ v := by
    rintro v hv rfl
    rw [known_of_mem_commits hsound hv] at hnew
    cases hnew
  rw [hlog] at hknown
  refine ⟨hknown (mem_commits_append.mpr (Or.inr List.mem_cons_self)),
    fun hin => hknown (mem_commits_append.mpr (Or.inl hin)) rfl, fun haccess => ?_⟩
  have hin : .accessed t (.object oid .write) ∈ w.log := by
    rw [hlog]
    exact List.mem_append_left _ haccess
  rw [hsound.retains.orderly.accessed t _ hin] at hnew
  cases hnew

theorem not_told_of_unknown {forUpdate : Bool} {d : Bytes}
    (hnew : ((Traffic.new shards Memory.empty).run actions).store.register.isKnown t = false) :
    .answered t (.get oid forUpdate) (.ok (.data d)) ∉
      ((Traffic.new shards Memory.empty).run actions).log := by
  intro hin
  obtain ⟨before, rest, hlog⟩ := List.append_of_mem hin
  obtain ⟨mode, haccess⟩ := accessed_of_get hlog
  have hthere : .accessed t (.object oid mode) ∈
      ((Traffic.new shards Memory.empty).run actions).log := by
    rw [hlog]
    exact List.mem_append_left _ haccess
  rw [(Sound.run shards actions).retains.orderly.accessed t _ hthere] at hnew
  cases hnew

theorem exists_log_run [Backend β] (actions : List StoreAction) (w : LockingTraffic β) :
    ∃ events, (w.run actions).log = w.log ++ events := by
  induction actions using List.reverseRecOn with
  | nil => exact ⟨[], (List.append_nil _).symm⟩
  | append_singleton actions a ih =>
      obtain ⟨events, hevents⟩ := ih
      rw [run_concat]
      rcases log_perform (w.run actions) a with hsame | ⟨e, hone⟩
      · exact ⟨events, hsame.trans hevents⟩
      · exact ⟨events ++ [e], by rw [hone, hevents, List.append_assoc]⟩

end Life

/-- What holds of an object in a state `w'` that a run comes to from `w`. -/
structure LivesOnce (w w' : LockingTraffic Memory) (oid : ObjectId) : Prop where
  /-- What is committed of it was made by a committed transaction, and made only once. -/
  made : (w'.store.backend.objects.get? oid).isSome = true →
    ∃ u ∈ commits w'.log, Created w'.log u oid ∧ ∀ v, Created w'.log v oid → v = u
  /-- It does not come to be if whoever has made it is aborted. -/
  unmade : ∀ u, Created w'.log u oid → w'.store.register.stateOf u = .aborted →
    w'.store.backend.objects.get? oid = none
  /-- It does not come back once it has been removed. -/
  gone : ∀ u ∈ commits w.log, Removed w.log u oid → w'.store.backend.objects.get? oid = none
  /-- Nor does a transaction that has not begun by then see it, unless it conjures it itself.  (What
  it sees is told by the answers it has had as long as no write of its is yet to be answered.) -/
  unseen : ∀ u ∈ commits w.log, Removed w.log u oid →
    ∀ t, w.store.register.isKnown t = false → ¬ Conjures w'.log t oid →
      Buffering w' t → draft w'.calls w'.log t = ledger t w'.log →
        w'.store.backend.object? t oid = none
  untold : ∀ u ∈ commits w.log, Removed w.log u oid →
    ∀ t, w.store.register.isKnown t = false → ¬ Conjures w'.log t oid →
      ∀ forUpdate d, .answered t (.get oid forUpdate) (.ok (.data d)) ∉ w'.log

/--
**An object lives once**, in every run in which those who commit have set it only when they saw it,
and in which no number had to be given out twice.
-/
theorem object_life (shards : Nat) (actions later : List StoreAction) (oid : ObjectId)
    (hsees : ∀ v ∈ commits ((Traffic.new shards Memory.empty).run (actions ++ later)).log,
      ¬ Conjures ((Traffic.new shards Memory.empty).run (actions ++ later)).log v oid)
    (hcount : (creations ((Traffic.new shards Memory.empty).run (actions ++ later)).log).length ≤
      wideLimit) :
    LivesOnce ((Traffic.new shards Memory.empty).run actions)
      ((Traffic.new shards Memory.empty).run (actions ++ later)) oid := by
  have hproper : Proper ((Traffic.new shards Memory.empty).run (actions ++ later)).log oid :=
    ⟨hsees, nodup_creations shards (actions ++ later) hcount⟩
  have hsound := Sound.run shards (actions ++ later)
  have hsettled := Settled.run shards (actions ++ later)
  have hmade : (((Traffic.new shards Memory.empty).run (actions ++ later)).store.backend.objects.get?
      oid).isSome = true → ∃ u ∈ commits ((Traffic.new shards Memory.empty).run (actions ++ later)).log,
        Created ((Traffic.new shards Memory.empty).run (actions ++ later)).log u oid := by
    intro hthere
    rw [hsettled.objects oid] at hthere
    exact exists_maker hproper hthere
  -- The removal and its commit, in the log of the whole run.
  obtain ⟨events, hevents⟩ := exists_log_run later ((Traffic.new shards Memory.empty).run actions)
  rw [← run_append] at hevents
  have hremoval : ∀ u ∈ commits ((Traffic.new shards Memory.empty).run actions).log,
      Removed ((Traffic.new shards Memory.empty).run actions).log u oid →
      ∃ before between after,
        ((Traffic.new shards Memory.empty).run actions).log =
          before ++ .answered u (.remove oid) (.ok .done) :: between ++ .committed u :: after ∧
        ((Traffic.new shards Memory.empty).run (actions ++ later)).log =
          before ++ .answered u (.remove oid) (.ok .done) :: between ++
            .committed u :: (after ++ events) := by
    intro u hu hremoved
    obtain ⟨before, between, after, hlog⟩ := exists_removal hu hremoved
    refine ⟨before, between, after, hlog, ?_⟩
    rw [hevents, hlog, List.append_assoc, List.cons_append]
  refine ⟨fun hthere => ?_, fun u hcreated haborted => ?_, fun u hu hremoved => ?_,
    fun u hu hremoved t hnew hself hbuffering hanswered => ?_,
    fun u hu hremoved t hnew hself forUpdate d htold => ?_⟩
  · obtain ⟨u, hu, hcreated⟩ := hmade hthere
    exact ⟨u, hu, hcreated, fun v hv => hv.eq_of_created hcreated hproper.nodup⟩
  · by_contra hthere
    obtain ⟨v, hv, hcreated'⟩ := hmade (Option.isSome_iff_ne_none.mpr hthere)
    obtain rfl := hcreated'.eq_of_created hcreated hproper.nodup
    exact not_mem_commits_of_aborted hsound haborted hv
  · obtain ⟨before, between, after, -, hlog⟩ := hremoval u hu hremoved
    rw [hsettled.objects oid]
    exact Option.not_isSome_iff_eq_none.mp (not_stands_of_removed hlog hproper)
  · obtain ⟨before, between, after, hearly, hlog⟩ := hremoval u hu hremoved
    have houtside : Outside _ u t oid :=
      outside_of_unknown (Sound.run shards actions) hearly hnew
    rw [hsettled.object?_eq (Accounted.run shards (actions ++ later) t) hbuffering oid, hanswered]
    exact houtside.seenIn_eq_none hlog hproper hself
  · obtain ⟨before, between, after, hearly, hlog⟩ := hremoval u hu hremoved
    have houtside : Outside _ u t oid :=
      outside_of_unknown (Sound.run shards actions) hearly hnew
    have hnotLate := houtside.not_told hlog hproper hself forUpdate d
    rw [hevents] at htold
    rcases List.mem_append.mp htold with hin | hin
    · exact not_told_of_unknown hnew hin
    · exact hnotLate (List.mem_append_right _ hin)

/-- A transaction makes an object, sets it and commits; another one removes it and commits. -/
def madeAndRemoved : List StoreAction :=
  [.begin ⟨1⟩ ⟨1, 0⟩ 9, .operate ⟨1⟩ .create, .proceed ⟨1⟩,
    .operate ⟨1⟩ (.set ⟨1⟩ [170]), .proceed ⟨1⟩, .proceed ⟨1⟩,
    .participate ⟨1⟩ .prepareAndCommit, .proceed ⟨1⟩, .proceed ⟨1⟩, .proceed ⟨1⟩, .proceed ⟨1⟩,
    .proceed ⟨1⟩, .begin ⟨2⟩ ⟨2, 0⟩ 9, .operate ⟨2⟩ (.remove ⟨1⟩), .proceed ⟨2⟩, .proceed ⟨2⟩,
    .participate ⟨2⟩ .prepareAndCommit, .proceed ⟨2⟩, .proceed ⟨2⟩, .proceed ⟨2⟩, .proceed ⟨2⟩,
    .proceed ⟨2⟩]

/-- The second transaction of that run has removed the object, and is committed. -/
theorem removed_madeAndRemoved :
    ⟨2⟩ ∈ commits ((Traffic.new 1 Memory.empty).run madeAndRemoved).log ∧
      Removed ((Traffic.new 1 Memory.empty).run madeAndRemoved).log ⟨2⟩ ⟨1⟩ := by
  have hlog : ((Traffic.new 1 Memory.empty).run madeAndRemoved).log =
      [.answered ⟨1⟩ .create (.ok (.object ⟨1⟩)), .accessed ⟨1⟩ (.object ⟨1⟩ .write),
        .answered ⟨1⟩ (.set ⟨1⟩ [170]) (.ok .done), .committed ⟨1⟩,
        .participated ⟨1⟩ .prepareAndCommit (.ok .done), .accessed ⟨2⟩ (.object ⟨1⟩ .write)] ++
        .answered ⟨2⟩ (.remove ⟨1⟩) (.ok .done) ::
          [.committed ⟨2⟩, .participated ⟨2⟩ .prepareAndCommit (.ok .done)] := rfl
  rw [hlog]
  exact ⟨by decide, List.mem_append_right _ List.mem_cons_self⟩

/-- A third transaction looks for it. -/
def lookedFor : List StoreAction :=
  [.begin ⟨3⟩ ⟨3, 0⟩ 9, .operate ⟨3⟩ (.get ⟨1⟩ false), .proceed ⟨3⟩, .proceed ⟨3⟩, .proceed ⟨3⟩]

set_option maxRecDepth 4000 in
theorem log_lookedFor :
    ((Traffic.new 1 Memory.empty).run (madeAndRemoved ++ lookedFor)).log =
      [.answered ⟨1⟩ .create (.ok (.object ⟨1⟩)), .accessed ⟨1⟩ (.object ⟨1⟩ .write),
        .answered ⟨1⟩ (.set ⟨1⟩ [170]) (.ok .done), .committed ⟨1⟩,
        .participated ⟨1⟩ .prepareAndCommit (.ok .done), .accessed ⟨2⟩ (.object ⟨1⟩ .write),
        .answered ⟨2⟩ (.remove ⟨1⟩) (.ok .done), .committed ⟨2⟩,
        .participated ⟨2⟩ .prepareAndCommit (.ok .done), .accessed ⟨3⟩ (.object ⟨1⟩ .read),
        .answered ⟨3⟩ (.get ⟨1⟩ false) (.error (.objectNotFound ⟨1⟩))] :=
  rfl

/-- Nobody conjures the object: the one that sets it has just made it. -/
theorem not_conjures_lookedFor (t : TxnId) :
    ¬ Conjures ((Traffic.new 1 Memory.empty).run (madeAndRemoved ++ lookedFor)).log t ⟨1⟩ := by
  rw [log_lookedFor]
  rintro ⟨before, op, result, data, rest, heq, hwrite, hmade, hunseen⟩
  have hset : t = ⟨1⟩ ∧ before =
      [.answered ⟨1⟩ .create (.ok (.object ⟨1⟩)), .accessed ⟨1⟩ (.object ⟨1⟩ .write)] := by
    simp only [List.cons_eq_append_iff, List.cons.injEq, Event.answered.injEq, reduceCtorEq,
      false_and, and_false, List.nil_eq, List.append_eq_nil_iff, exists_const, or_false,
      ↓existsAndEq, true_and, false_or] at heq
    -- The answers of the log, one after the other.
    rcases heq with ⟨-, ⟨-, rfl, -⟩, -⟩ | ⟨_, rfl, ⟨rfl, ⟨rfl, -, -⟩, -⟩ |
      ⟨_, rfl, ⟨-, ⟨-, rfl, rfl⟩, -⟩ | ⟨-, ⟨-, rfl, rfl⟩, -⟩⟩⟩
    · exact absurd rfl hmade
    · exact ⟨rfl, rfl⟩
    · simp [Operation.writes] at hwrite
    · simp [Operation.writes] at hwrite
  obtain ⟨rfl, rfl⟩ := hset
  have hseen : seenIn [.answered ⟨1⟩ .create (.ok (.object ⟨1⟩)),
      .accessed ⟨1⟩ (.object ⟨1⟩ .write)] ⟨1⟩ ⟨1⟩ = some [] := rfl
  rw [hseen] at hunseen
  cases hunseen

set_option maxRecDepth 4000 in
/-- The third transaction does not find the object. -/
theorem gone_lookedFor :
    LivesOnce ((Traffic.new 1 Memory.empty).run madeAndRemoved)
        ((Traffic.new 1 Memory.empty).run (madeAndRemoved ++ lookedFor)) ⟨1⟩ ∧
      ((Traffic.new 1 Memory.empty).run (madeAndRemoved ++ lookedFor)).store.backend.object? ⟨3⟩ ⟨1⟩ =
        none := by
  have hlife := object_life 1 madeAndRemoved lookedFor ⟨1⟩ (fun v _ => not_conjures_lookedFor v)
    (by rw [log_lookedFor]; decide)
  have hlive : Live ((Traffic.new 1 Memory.empty).run (madeAndRemoved ++ lookedFor)) ⟨3⟩ :=
    ⟨rfl, rfl, rfl⟩
  exact ⟨hlife, hlife.unseen ⟨2⟩ removed_madeAndRemoved.1 removed_madeAndRemoved.2 ⟨3⟩ rfl
    (not_conjures_lookedFor ⟨3⟩) (Or.inl hlive) rfl⟩

/-- A transaction makes an object and is aborted.  Another one sets the object and commits. -/
def bornOfNobody : List StoreAction :=
  [.begin ⟨1⟩ ⟨1, 0⟩ 9, .begin ⟨2⟩ ⟨2, 0⟩ 9, .operate ⟨1⟩ .create, .proceed ⟨1⟩,
    .participate ⟨1⟩ .abort, .proceed ⟨1⟩, .proceed ⟨1⟩, .proceed ⟨1⟩, .proceed ⟨1⟩,
    .operate ⟨2⟩ (.set ⟨1⟩ [170]), .proceed ⟨2⟩, .proceed ⟨2⟩,
    .participate ⟨2⟩ .prepareAndCommit, .proceed ⟨2⟩, .proceed ⟨2⟩, .proceed ⟨2⟩, .proceed ⟨2⟩,
    .proceed ⟨2⟩]

/-- An object that has been removed is set again, and that is committed. -/
def setAgain : List StoreAction :=
  [.begin ⟨3⟩ ⟨3, 0⟩ 9, .operate ⟨3⟩ (.set ⟨1⟩ [187]), .proceed ⟨3⟩, .proceed ⟨3⟩,
    .participate ⟨3⟩ .prepareAndCommit, .proceed ⟨3⟩, .proceed ⟨3⟩, .proceed ⟨3⟩, .proceed ⟨3⟩,
    .proceed ⟨3⟩, .begin ⟨4⟩ ⟨4, 0⟩ 9]

set_option maxRecDepth 4000 in
/-- **Objects do not always live once.**  One comes to be though the transaction that has made it is
aborted, and one comes back after the commit of its removal, and is seen by a transaction that begins
later. -/
theorem exists_object_revived :
    (∃ (shards : Nat) (actions : List StoreAction) (u : TxnId) (oid : ObjectId),
      Created ((Traffic.new shards Memory.empty).run actions).log u oid ∧
      ((Traffic.new shards Memory.empty).run actions).store.register.stateOf u = .aborted ∧
      ((Traffic.new shards Memory.empty).run actions).store.backend.objects.get? oid ≠ none) ∧
    ∃ (shards : Nat) (actions later : List StoreAction) (u t : TxnId) (oid : ObjectId),
      u ∈ commits ((Traffic.new shards Memory.empty).run actions).log ∧
      Removed ((Traffic.new shards Memory.empty).run actions).log u oid ∧
      ((Traffic.new shards Memory.empty).run actions).store.register.isKnown t = false ∧
      ledger t ((Traffic.new shards Memory.empty).run (actions ++ later)).log = [] ∧
      ((Traffic.new shards Memory.empty).run (actions ++ later)).store.backend.objects.get? oid ≠ none ∧
      ((Traffic.new shards Memory.empty).run (actions ++ later)).store.backend.object? t oid ≠ none := by
  refine ⟨⟨1, bornOfNobody, ⟨1⟩, ⟨1⟩, ?_, rfl, ?_⟩, 1, madeAndRemoved, setAgain, ⟨2⟩, ⟨4⟩, ⟨1⟩,
    removed_madeAndRemoved.1, removed_madeAndRemoved.2, rfl, rfl, ?_, ?_⟩
  · have hlog : ∃ rest, ((Traffic.new 1 Memory.empty).run bornOfNobody).log =
        .answered ⟨1⟩ .create (.ok (.object ⟨1⟩)) :: rest := ⟨_, rfl⟩
    obtain ⟨rest, hlog⟩ := hlog
    rw [Created, hlog]
    exact List.mem_cons_self
  · have hthere : ((Traffic.new 1 Memory.empty).run bornOfNobody).store.backend.objects.get? ⟨1⟩ =
        some [170] := rfl
    rw [hthere]
    simp
  · have hthere : ((Traffic.new 1 Memory.empty).run
        (madeAndRemoved ++ setAgain)).store.backend.objects.get? ⟨1⟩ = some [187] := rfl
    rw [hthere]
    simp
  · have hseen : ((Traffic.new 1 Memory.empty).run
        (madeAndRemoved ++ setAgain)).store.backend.object? ⟨4⟩ ⟨1⟩ = some [187] := rfl
    rw [hseen]
    simp

end Traffic

end ObjectStore
