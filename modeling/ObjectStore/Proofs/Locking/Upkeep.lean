/-
A table keeps nothing that it does not need.

A key is stored in the shard of its hash and only with entries, so that a table without keys is one
that nobody holds or waits in: `LockTable.Tidy` says so, and every operation keeps it.  An attempt
never leaves a key bare (`LockTable.shards_attempt`), so that keys are dropped only where entries are
taken away.  Each locker has one entry on a key at most, whoever is queued has a call that waits, and
those who wait are listed by precedence.  `LockSession.well_kept` puts these together for all runs.
-/
import Mathlib.Data.List.Sort
import ObjectStore.Proofs.Locking.Stranded

namespace ObjectStore

namespace LockTable

variable {K L σ : Type} [Hashable K] [DecidableEq K] {t t' : LockTable K L} {key : K}

/-! ### What is stored -/

/-- Every key that is stored is in its own shard and has an entry. -/
def Tidy (t : LockTable K L) : Prop :=
  ∀ i shard, t.shards[i]? = some shard → ∀ key es, shard.get? key = some es →
    t.shardIndex key = i ∧ es ≠ []

theorem tidy_ofShards (count : Nat) : (ofShards count : LockTable K L).Tidy := by
  intro i shard hshard key es hes
  obtain ⟨-, rfl⟩ := List.mem_replicate.mp (List.mem_of_getElem? hshard)
  exact absurd hes (by simp)

theorem Tidy.congr (h : t.Tidy) (hshards : t'.shards = t.shards) : t'.Tidy := by
  intro i shard hshard key es hes
  rw [hshards] at hshard
  have hindex : t'.shardIndex key = t.shardIndex key := by
    unfold shardIndex
    rw [hshards]
  rw [hindex]
  exact h i shard hshard key es hes

/-- A key whose last entry goes is dropped. -/
theorem Tidy.setEntries (h : t.Tidy) (key : K) (entries : List (LockEntry L)) :
    (t.setEntries key entries).Tidy := by
  intro i shard hshard key' es hes
  rw [shardIndex_setEntries]
  rw [LockTable.setEntries, List.getElem?_modify] at hshard
  obtain ⟨old, hold, hchange⟩ := Option.map_eq_some_iff.mp hshard
  by_cases hindex : t.shardIndex key = i
  · rw [if_pos hindex] at hchange
    subst hchange
    by_cases hkey : key = key'
    · subst hkey
      refine ⟨hindex, ?_⟩
      cases entries with
      | nil => simp [FinMap.get?_erase] at hes
      | cons e rest =>
          have heq : e :: rest = es := by simpa using hes
          exact heq ▸ List.cons_ne_nil e rest
    · refine h i old hold key' es ?_
      cases entries <;> simpa [FinMap.get?_erase, FinMap.get?_insert, hkey] using hes
  · rw [if_neg hindex] at hchange
    subst hchange
    exact h i old hold key' es hes

/-- A table is empty exactly if no key has an entry. -/
theorem Tidy.isEmpty_iff (h : t.Tidy) : t.isEmpty = true ↔ ∀ key, t.entries key = [] := by
  unfold isEmpty
  rw [List.all_eq_true]
  constructor
  · intro hall key
    obtain ⟨shard, hshard⟩ := t.exists_shard key
    have hnil : shard.pairs = [] := List.isEmpty_iff.mp (hall shard (List.mem_of_getElem? hshard))
    unfold entries
    rw [hshard]
    simp [FinMap.get?, hnil]
  · intro hnone shard hmem
    obtain ⟨i, hi⟩ := List.getElem?_of_mem hmem
    refine List.isEmpty_iff.mpr (List.eq_nil_iff_forall_not_mem.mpr ?_)
    rintro ⟨key, es⟩ hin
    have hget := (FinMap.get?_eq_some_iff shard key es).mpr hin
    obtain ⟨hindex, hne⟩ := h i shard hi key es hget
    refine hne ?_
    have hentries := hnone key
    unfold entries at hentries
    rwa [hindex, hi, Option.bind_some, hget] at hentries

section Operations

variable [DecidableEq L] {locker : L}

theorem Tidy.release (h : t.Tidy) (locker : L) (key : K) : (t.release locker key).2.Tidy := by
  unfold LockTable.release
  split
  · exact h
  · exact (h.setEntries key _).congr rfl

theorem Tidy.abandon (h : t.Tidy) (locker : L) (key : K) : (t.abandon locker key).Tidy := by
  have hunparked : Tidy { t with parked := t.parked.erase locker } := h.congr rfl
  unfold LockTable.abandon
  simp only
  split
  · exact hunparked
  · split
    · exact hunparked
    · exact hunparked.release locker key

theorem Tidy.park (h : t.Tidy) (key : K) (locker holder : L) :
    (t.park key locker holder).2.Tidy :=
  (h.setEntries key _).congr rfl

theorem Tidy.releaseAll (h : t.Tidy) (locker : L) : (t.releaseAll locker).Tidy := by
  intro i shard hshard key es hes
  have hindex : (t.releaseAll locker).shardIndex key = t.shardIndex key := by
    simp [shardIndex, LockTable.releaseAll]
  rw [LockTable.releaseAll, List.getElem?_map] at hshard
  obtain ⟨old, hold, rfl⟩ := Option.map_eq_some_iff.mp hshard
  rw [FinMap.get?_filterMap] at hes
  obtain ⟨before, hbefore, hleft⟩ := Option.bind_eq_some_iff.mp hes
  rw [hindex]
  refine ⟨(h i old hold key before hbefore).1, ?_⟩
  simp only at hleft
  split at hleft
  · exact absurd hleft (by simp)
  · rename_i hsome
    cases hleft
    simpa using hsome

variable [Lockers σ L] {now deadline : Nat} {mode : LockMode} {wait : Bool} {s s' : σ}

theorem Tidy.attempt (h : t.Tidy) {verdict : Verdict L}
    (hattempt : t.attempt now locker key mode wait s = (verdict, s', t')) : t'.Tidy := by
  obtain ⟨c, -, -, rfl⟩ := attempt_eq hattempt
  exact (h.setEntries key c.entries).congr rfl

/-- Whatever an attempt comes to there is an entry on its key: its own, or one that stood in its way. -/
theorem entries_attempt_ne_nil (hd : t.Distinct) {verdict : Verdict L}
    (h : t.attempt now locker key mode wait s = (verdict, s', t')) : t'.entries key ≠ [] := by
  obtain ⟨e, he⟩ : ∃ e, e ∈ t'.requests key := by
    cases verdict with
    | granted =>
        obtain ⟨e, he, -⟩ := (attempt_spec .any hd h).granted rfl
        exact ⟨e, he⟩
    | blocked holder =>
        obtain ⟨e, he, -⟩ := attempt_blocked .any hd h
        exact ⟨e, he⟩
  obtain ⟨x, hx, -⟩ := List.mem_map.mp he
  exact List.ne_nil_of_mem hx

/-- **An attempt drops no key.**  It puts the entries that it leaves in place of those it has found,
and only a call that takes an entry away can leave a key without any. -/
theorem shards_attempt (hd : t.Distinct) {verdict : Verdict L}
    (h : t.attempt now locker key mode wait s = (verdict, s', t')) :
    t'.shards = t.shards.modify (t.shardIndex key) fun shard => shard.insert key (t'.entries key) := by
  have hleft := entries_attempt_ne_nil hd h
  obtain ⟨c, -, -, rfl⟩ := attempt_eq h
  have hentries : (t.setEntries key c.entries).entries key = c.entries :=
    (entries_setEntries t key c.entries key).trans (if_pos rfl)
  have hne : c.entries.isEmpty = false := by
    rw [List.isEmpty_eq_false_iff, ← hentries]
    exact hleft
  show (t.setEntries key c.entries).shards = t.shards.modify _ fun shard =>
    shard.insert key ((t.setEntries key c.entries).entries key)
  rw [hentries]
  simp [setEntries, hne]

theorem Tidy.turn (h : t.Tidy) {answer : LockTurn L}
    (hturn : t.turn now deadline locker key mode s = (answer, s', t')) : t'.Tidy := by
  cases turn_outcome hturn with
  | inactive => exact h.abandon locker key
  | granted _ hattempt => exact (h.attempt hattempt).congr rfl
  | timedOut _ hattempt => exact ((h.attempt hattempt).park key locker _).abandon locker key
  | waiting _ hattempt => exact (h.attempt hattempt).park key locker _

end Operations

/-! ### Holders and waiters -/

/-- Those who are queued on a key, by precedence. -/
def queue (t : LockTable K L) (key : K) : List (LockEntry L) :=
  ((t.entries key).filter (!·.granted)).mergeSort fun a b => !b.rank.before a.rank

theorem queue_perm (t : LockTable K L) (key : K) :
    (t.queue key).Perm ((t.entries key).filter (!·.granted)) :=
  List.mergeSort_perm _ _

theorem mem_queue {e : LockEntry L} :
    e ∈ t.queue key ↔ e ∈ t.entries key ∧ e.granted = false := by
  rw [(t.queue_perm key).mem_iff, List.mem_filter, Bool.not_eq_true']

theorem waiters_eq (t : LockTable K L) (key : K) :
    t.waiters key = (t.queue key).map (·.owner) := rfl

theorem queue_pairwise (t : LockTable K L) (key : K) :
    (t.queue key).Pairwise fun a b => b.rank.before a.rank = false := by
  have htrans : ∀ a b c : LockEntry L, (!b.rank.before a.rank) = true →
      (!c.rank.before b.rank) = true → (!c.rank.before a.rank) = true := by
    intro a b c hab hbc
    rw [Bool.not_eq_true'] at *
    exact Rank.before_eq_false_trans hbc hab
  have htotal : ∀ a b : LockEntry L, (!b.rank.before a.rank || !a.rank.before b.rank) = true := by
    intro a b
    rw [Bool.or_eq_true, Bool.not_eq_true', Bool.not_eq_true']
    cases hba : b.rank.before a.rank with
    | false => exact Or.inl rfl
    | true => exact Or.inr (Rank.before_asymm hba)
  exact (List.pairwise_mergeSort htrans htotal _).imp fun h => Bool.not_eq_true' _ ▸ h

/-- Where ranks are distinct, every entry of a queue precedes all later ones. -/
theorem queue_strict (hd : LockEntry.Distinct (t.entries key))
    (hranks : ∀ e ∈ t.queue key, ∀ e' ∈ t.queue key, e.rank = e'.rank → e.owner = e'.owner) :
    (t.queue key).Pairwise fun a b => a.rank.before b.rank = true := by
  have hnodup : ((t.queue key).map (·.owner)).Nodup := by
    refine ((t.queue_perm key).map _).nodup_iff.mpr ?_
    exact hd.sublist List.filter_sublist
  have hapart : (t.queue key).Pairwise fun a b => a.owner ≠ b.owner := List.pairwise_map.mp hnodup
  refine ((t.queue_pairwise key).and hapart).imp_of_mem ?_
  rintro a b ha hb ⟨hnot, hne⟩
  exact Rank.before_total (fun hsame => hne (hranks b hb a ha hsame).symm) hnot

theorem waiters_strict [Lockers σ L] {s : σ} (hd : LockEntry.Distinct (t.entries key))
    (hranked : t.Ranked s)
    (hranks : ∀ l ∈ t.waiters key, ∀ l' ∈ t.waiters key,
      Lockers.rank s l = Lockers.rank s l' → l = l') :
    (t.waiters key).Pairwise fun l l' =>
      (Lockers.rank s l).before (Lockers.rank s l') = true := by
  have hrank : ∀ e ∈ t.queue key, e.rank = Lockers.rank s e.owner := fun e he =>
    hranked key e.request (List.mem_map_of_mem (mem_queue.mp he).1)
  have hwaits : ∀ e ∈ t.queue key, e.owner ∈ t.waiters key := fun e he =>
    List.mem_map_of_mem he
  rw [waiters_eq, List.pairwise_map]
  refine (queue_strict hd fun e he e' he' hsame => ?_).imp_of_mem fun he he' hbefore => ?_
  · refine hranks e.owner (hwaits e he) e'.owner (hwaits e' he') ?_
    rw [← hrank e he, ← hrank e' he', hsame]
  · rw [← hrank _ he, ← hrank _ he']
    exact hbefore

theorem entries_eq_nil_iff : t.entries key = [] ↔ t.holders key = [] ∧ t.waiters key = [] := by
  rw [waiters_eq, List.map_eq_nil_iff]
  unfold holders
  rw [List.map_eq_nil_iff]
  constructor
  · intro hnil
    refine ⟨by simp [hnil], ?_⟩
    exact (hnil ▸ t.queue_perm key).eq_nil
  · rintro ⟨hheld, hqueued⟩
    refine List.eq_nil_iff_forall_not_mem.mpr fun e he => ?_
    cases hgranted : e.granted with
    | true => exact List.not_mem_nil (hheld ▸ List.mem_filter.mpr ⟨he, hgranted⟩)
    | false => exact List.not_mem_nil (hqueued ▸ mem_queue.mpr ⟨he, hgranted⟩)

end LockTable

/-! ### Runs -/

namespace LockSession

variable {K L σ : Type} [DecidableEq K] [Hashable K] [DecidableEq L] [Lockers σ L]
variable {s : LockSession K L σ}

theorem tidy_takeTurn (h : s.table.Tidy) (call : Nat) (locker : L) (key : K) (mode : LockMode)
    (deadline : Nat) : (s.takeTurn call locker key mode deadline).2.table.Tidy := by
  rcases hturn : s.table.turn s.now deadline locker key mode s.lockers with ⟨turn, lockers, table⟩
  obtain ⟨waiting, heq, -⟩ := takeTurn_eq call hturn
  rw [heq]
  exact h.turn hturn

theorem tidy_perform (h : s.table.Tidy) (a : LockAction K L σ) : (s.perform a).table.Tidy := by
  have hperformed := performed s a
  generalize s.perform a = s' at hperformed ⊢
  cases hperformed with
  | busy => exact h
  | begun => exact tidy_takeTurn h _ _ _ _ _
  | early => exact h
  | resumed => exact tidy_takeTurn h _ _ _ _ _
  | @tried locker key mode =>
      rcases htry : s.table.tryLock s.now locker key mode s.lockers with ⟨answer, lockers, table⟩
      rw [tryLock_eq htry]
      rcases LockTable.tryLock_cases htry with ⟨-, rfl⟩ | ⟨verdict, hattempt⟩
      · exact h
      · exact h.attempt hattempt
  | released => exact h.release _ _
  | releasedAll => exact h.releaseAll _
  | changed => exact h
  | ticked => exact h

theorem tidy_run (h : s.table.Tidy) (actions : List (LockAction K L σ)) :
    (s.run actions).table.Tidy := by
  induction actions generalizing s with
  | nil => exact h
  | cons a rest ih => exact ih (tidy_perform h a)

/--
**A table stays well kept.**  After any actions of any lockers no locker has two entries on a key,
no key is stored without entries, and the table is empty exactly if nobody holds and nobody waits.
Whoever is queued has a call that waits for the key.  Those who wait for a key are those who are
queued on it, in the order of the ranks in their entries; as long as lockers keep their ranks, these
are the ranks that they have.
-/
theorem well_kept (now : Nat) (lockers : σ) (shards : Nat) (actions : List (LockAction K L σ))
    {s : LockSession K L σ} (hs : s = (new now lockers shards).run actions) :
    (∀ key, ((s.table.entries key).map (·.owner)).Nodup) ∧
    (∀ shard ∈ s.table.shards, ∀ key es, shard.get? key = some es → es ≠ []) ∧
    (s.table.isEmpty = true ↔ ∀ key, s.table.holders key = [] ∧ s.table.waiters key = []) ∧
    (∀ key, ∀ e ∈ s.table.entries key, e.granted = false →
      ∃ call c, s.waiting.get? call = some c ∧ c.locker = e.owner ∧ c.key = key) ∧
    (∀ key, ∃ queue : List (LockEntry L),
      queue.Perm ((s.table.entries key).filter (!·.granted)) ∧
      s.table.waiters key = queue.map (·.owner) ∧
      ((∀ e ∈ queue, ∀ e' ∈ queue, e.rank = e'.rank → e.owner = e'.owner) →
        queue.Pairwise fun e e' => e.rank.before e'.rank = true)) ∧
    (Lockers.Ageless σ → (∀ a ∈ actions, a.KeepsRanks) → ∀ key,
      (∀ l ∈ s.table.waiters key, ∀ l' ∈ s.table.waiters key,
        Lockers.rank s.lockers l = Lockers.rank s.lockers l' → l = l') →
      (s.table.waiters key).Pairwise fun l l' =>
        (Lockers.rank s.lockers l).before (Lockers.rank s.lockers l') = true) := by
  have hdistinct : s.table.Distinct := hs ▸ distinct_run (LockTable.distinct_ofShards shards) actions
  have htidy : s.table.Tidy := hs ▸ tidy_run (LockTable.tidy_ofShards shards) actions
  have hbacked : s.Backed :=
    hs ▸ backed_run (LockTable.distinct_ofShards shards) (backed_new now lockers shards) actions
  refine ⟨hdistinct.entries, ?_, ?_, ?_, ?_, ?_⟩
  · intro shard hmem key es hes
    obtain ⟨i, hi⟩ := List.getElem?_of_mem hmem
    exact (htidy i shard hi key es hes).2
  · exact htidy.isEmpty_iff.trans (forall_congr' fun key => LockTable.entries_eq_nil_iff)
  · exact fun key e he hqueued => hbacked key e.request (List.mem_map_of_mem he) hqueued
  · exact fun key => ⟨s.table.queue key, s.table.queue_perm key, s.table.waiters_eq key,
      LockTable.queue_strict (hdistinct.entries key)⟩
  · intro hage hkeeps key
    have hattended := attended_run hage now lockers shards hkeeps
    rw [← hs] at hattended
    exact LockTable.waiters_strict (hdistinct.entries key) hattended.ranked

/-- Three parties that have all the time there is, from the eldest to the youngest. -/
def threeAges : Parties := elderAndYounger.put 3 ⟨⟨300, 0⟩, 3, false, false, true, none⟩

/-- The eldest writes a key; the youngest waits to read it, and then the one between them. -/
def readersBehindWriter : List (LockAction String PartyId Parties) :=
  [.lock 1 1 "k" .write, .lock 3 3 "k" .read, .lock 2 2 "k" .read]

/-- The table in which two readers wait for a writer is not empty, and both are listed, by age. -/
theorem well_kept_behind_writer :
    ∃ s : LockSession String PartyId Parties,
      s = (new Party.now threeAges 1).run readersBehindWriter ∧
      s.table.isEmpty = false ∧ (s.table.waiters "k").Perm [3, 2] ∧
      (s.table.waiters "k").Pairwise fun l l' =>
        (Lockers.rank s.lockers l).before (Lockers.rank s.lockers l') = true := by
  refine ⟨_, rfl, ?_⟩
  obtain ⟨-, -, hempty, -, hqueue, hsorted⟩ :=
    well_kept Party.now threeAges 1 readersBehindWriter rfl
  have hkeeps : ∀ a ∈ readersBehindWriter, a.KeepsRanks := by
    intro a ha
    simp only [readersBehindWriter, List.mem_cons, List.not_mem_nil, or_false] at ha
    rcases ha with rfl | rfl | rfl <;> trivial
  have hqueued : ((((new Party.now threeAges 1).run readersBehindWriter).table.entries
      "k").filter (!·.granted)).map (·.owner) = [3, 2] := by
    decide
  have hranks : ∀ l ∈ [3, 2], ∀ l' ∈ [3, 2],
      Lockers.rank ((new Party.now threeAges 1).run readersBehindWriter).lockers l =
        Lockers.rank ((new Party.now threeAges 1).run readersBehindWriter).lockers l' → l = l' := by
    decide
  have hperm : (((new Party.now threeAges 1).run readersBehindWriter).table.waiters "k").Perm
      [3, 2] := by
    obtain ⟨queue, hentries, hwaiters, -⟩ := hqueue "k"
    rw [hwaiters, ← hqueued]
    exact hentries.map _
  refine ⟨?_, hperm, hsorted Parties.ageless hkeeps "k" fun l hl l' hl' => ?_⟩
  · rw [Bool.eq_false_iff, ne_eq, hempty]
    intro hnone
    have hlength := hperm.length_eq
    rw [(hnone "k").2] at hlength
    exact absurd hlength (by decide)
  · exact hranks l (hperm.subset hl) l' (hperm.subset hl')

end LockSession

end ObjectStore
