/-
A writer is alone with its key.

No two lockers are meant to hold a key in modes that conflict.  An attempt sees to it by asking
whether the mode it was given conflicts with the holders that are left, but it then raises the
locker's own entry to the stronger of its two modes.  The two differ in one case: a locker that is
queued to write asks to read.  If it is let in beside another reader it holds the key to write.

`LockSession.Oversteps` names that case, and `exclusive_run_iff` says that it is the only one: a run
keeps writers alone, at every moment, exactly if no action of it oversteps.
-/
import Mathlib.Data.List.Induction
import ObjectStore.Locking.Party
import ObjectStore.Proofs.Locking.Run

namespace ObjectStore

open LockEntry (Handled)

namespace LockTable

variable {K L : Type} [Hashable K] [DecidableEq K]

/-- Whoever holds a key to write is its only holder. -/
def Exclusive (t : LockTable K L) : Prop :=
  ∀ key locker, (locker, LockMode.write) ∈ t.holders key → t.holders key = [(locker, .write)]

theorem mem_holders {t : LockTable K L} {key : K} {locker : L} {mode : LockMode} :
    (locker, mode) ∈ t.holders key ↔
      ∃ e ∈ t.requests key, e.granted = true ∧ e.owner = locker ∧ e.mode = mode := by
  unfold holders requests
  constructor
  · intro h
    obtain ⟨e, he, heq⟩ := List.mem_map.mp h
    obtain ⟨hin, hgranted⟩ := List.mem_filter.mp he
    obtain ⟨howner, hmode⟩ := Prod.mk.inj heq
    exact ⟨e.request, List.mem_map_of_mem hin, hgranted, howner, hmode⟩
  · rintro ⟨e, he, hgranted, rfl, rfl⟩
    obtain ⟨x, hx, rfl⟩ := List.mem_map.mp he
    exact List.mem_map.mpr ⟨x, List.mem_filter.mpr ⟨hx, hgranted⟩, rfl⟩

theorem Distinct.holders {t : LockTable K L} (hd : t.Distinct) (key : K) :
    ((t.holders key).map (·.1)).Nodup := by
  have hsub : ((t.entries key).filter (·.granted)).Sublist (t.entries key) := List.filter_sublist
  have hnodup := (hd.entries key).sublist hsub
  unfold LockEntry.Distinct at hnodup
  unfold LockTable.holders
  rwa [List.map_map]

theorem exclusive_ofShards (count : Nat) : (ofShards count : LockTable K L).Exclusive := by
  intro key locker hmem
  obtain ⟨e, he, -⟩ := mem_holders.mp hmem
  unfold requests at he
  rw [entries_ofShards] at he
  exact absurd he (by simp)

theorem exclusive_iff {t : LockTable K L} (hd : t.Distinct) :
    t.Exclusive ↔ ∀ key, LockEntry.Exclusive (t.requests key) := by
  constructor
  · intro hex key e he e' he' hgranted hgranted' hne
    by_contra hconflict
    have halone : ∀ writer ∈ t.requests key, writer.granted = true → writer.mode = .write →
        ∀ other ∈ t.requests key, other.granted = true → other.owner = writer.owner := by
      intro writer hwriter hwgranted hwrite other hother hogranted
      have hall := hex key writer.owner (mem_holders.mpr ⟨writer, hwriter, hwgranted, rfl, hwrite⟩)
      have hmem : (other.owner, other.mode) ∈ t.holders key :=
        mem_holders.mpr ⟨other, hother, hogranted, rfl, rfl⟩
      rw [hall] at hmem
      exact (Prod.mk.inj (List.mem_singleton.mp hmem)).1
    have hwrites : e.mode = .write ∨ e'.mode = .write := by
      simpa only [LockMode.conflictsWith, Bool.not_eq_false, Bool.or_eq_true, decide_eq_true_eq]
        using hconflict
    rcases hwrites with hw | hw
    · exact hne (halone e he hgranted hw e' he' hgranted').symm
    · exact hne (halone e' he' hgranted' hw e he hgranted)
  · intro hex key locker hmem
    obtain ⟨e, he, hgranted, howner, hmode⟩ := mem_holders.mp hmem
    have hall : ∀ holder ∈ t.holders key, holder = (locker, .write) := by
      rintro ⟨other, mode⟩ hholder
      obtain ⟨e', he', hgranted', rfl, rfl⟩ := mem_holders.mp hholder
      by_cases hsame : e'.owner = locker
      · rw [(hd key).eq_of_owner he' he (hsame.trans howner.symm), howner, hmode]
      · have hno := hex key e he e' he' hgranted hgranted' fun hc => hsame (hc.symm.trans howner)
        rw [hmode] at hno
        exact absurd hno (by simp [LockMode.conflictsWith])
    have hnodup : (t.holders key).Nodup := List.Nodup.of_map _ (hd.holders key)
    have hcopies := List.eq_replicate_of_mem hall
    have hone : (t.holders key).length = 1 := by
      have hle : (t.holders key).length ≤ 1 := List.nodup_replicate.mp (hcopies ▸ hnodup)
      have hpos := List.length_pos_of_mem hmem
      omega
    rw [hcopies, hone]
    rfl

end LockTable

namespace LockSession

variable {K L σ : Type} [DecidableEq K] [Hashable K] [DecidableEq L] [Lockers σ L]

/-- An action oversteps if its locker, queued to write, asks to read and is let in beside another
holder. -/
def Oversteps (a : LockAction K L σ) (s : LockSession K L σ) : Prop :=
  ∃ locker key mode, s.asks a = some (locker, key, mode) ∧
    LockEntry.Oversteps locker mode (s.table.requests key) ((s.perform a).table.requests key)

variable {s : LockSession K L σ}

/-- **An action keeps writers alone exactly if it does not overstep.** -/
theorem exclusive_perform_iff (hd : s.table.Distinct) (hex : s.table.Exclusive)
    (a : LockAction K L σ) : (s.perform a).table.Exclusive ↔ ¬ Oversteps a s := by
  have hentries := (LockTable.exclusive_iff hd).mp hex
  rw [LockTable.exclusive_iff (distinct_perform hd a)]
  constructor
  · rintro hex' ⟨locker, key, mode, hasks, hover⟩
    rcases perform_cases hd a key with ⟨locker', mode', hasks', hhandled⟩ | hsub
    · rw [hasks] at hasks'
      cases hasks'
      exact (hhandled.exclusive_iff (hd key) (hentries key)).mp (hex' key) hover
    · -- A locker does not come to hold a key by losing requests.
      obtain ⟨-, ⟨old, hold, holdowner, hqueued, -⟩, ⟨own, hown, howner, hgranted⟩, -⟩ := hover
      rw [(hd key).eq_of_owner (hsub.subset hown) hold (howner.trans holdowner.symm), hqueued]
        at hgranted
      exact absurd hgranted (by simp)
  · intro hover key
    rcases perform_cases hd a key with ⟨locker, mode, hasks, hhandled⟩ | hsub
    · refine (hhandled.exclusive_iff (hd key) (hentries key)).mpr fun hc => hover ?_
      exact ⟨locker, key, mode, hasks, hc⟩
    · intro e he e' he'
      exact hentries key e (hsub.subset he) e' (hsub.subset he')

/--
**A run keeps writers alone exactly if no action of it oversteps.**  The run starts with an empty
table; its lockers, their states and the order of its actions are arbitrary.
-/
theorem exclusive_run_iff (now : Nat) (lockers : σ) (shards : Nat)
    (actions : List (LockAction K L σ)) :
    (∀ before, before <+: actions → ((new now lockers shards).run before).table.Exclusive) ↔
      ∀ before a, before ++ [a] <+: actions → ¬ Oversteps a ((new now lockers shards).run before) := by
  have hd : ∀ before, ((new now lockers shards).run before : LockSession K L σ).table.Distinct :=
    fun before => distinct_run (LockTable.distinct_ofShards shards) before
  constructor
  · intro hex before a hprefix
    rw [← exclusive_perform_iff (hd before) (hex before ((List.prefix_append _ _).trans hprefix)),
      ← run_concat]
    exact hex _ hprefix
  · intro hnot before
    -- By induction on the length of the run so far, from its last action.
    induction before using List.reverseRecOn with
    | nil => exact fun _ => LockTable.exclusive_ofShards shards
    | append_singleton before a ih =>
        intro hprefix
        rw [run_concat]
        exact (exclusive_perform_iff (hd before) (ih ((List.prefix_append _ _).trans hprefix)) a).mpr
          (hnot before a hprefix)

/-- Two parties that have all the time there is, the first of them the elder. -/
def elderAndYounger : Parties :=
  (Parties.none.put 1 ⟨⟨100, 0⟩, 1, false, false, true, none⟩).put 2
    ⟨⟨200, 0⟩, 2, false, false, true, none⟩

/-- The elder reads a key, the younger waits to write it, and then asks to read it as well. -/
def readWhileQueuedToWrite : List (LockAction String PartyId Parties) :=
  [.lock 1 1 "k" .read, .lock 2 2 "k" .write, .tryLock 2 "k" .read]

/-- A locker that is queued to write and asks to read ends up writing beside a reader. -/
theorem exists_run_not_exclusive :
    ¬ ((new Party.now elderAndYounger 1).run readWhileQueuedToWrite).table.Exclusive := by
  intro hex
  have hholders : ((new Party.now elderAndYounger 1).run readWhileQueuedToWrite).table.holders "k" =
      [(1, .read), (2, .write)] := by
    decide
  have halone := hex "k" 2 (by simp [hholders])
  rw [hholders] at halone
  exact absurd halone (by simp)

end LockSession

end ObjectStore
