/-
The lock table: the entries of every key, in shards.

A key belongs to the shard that its hash names.  The table also knows on which signal each locker
is parked, and which signals have been given.  A key without entries is not kept, so the table is
empty exactly when nobody holds and nobody waits.

`entries` is what a table shows of its shards.  The lemmas beside the operations say what each of
them does to it; nothing else needs to know in which shard a key is.
-/
import ObjectStore.Locking.Contest

namespace ObjectStore

/-- The locks on keys of type `K` held by lockers of type `L`. -/
structure LockTable (K L : Type) where
  shards : List (FinMap K (List (LockEntry L)))
  parked : FinMap L Signal
  notified : List Signal
  nextSignal : Signal
  /-- Every key has a shard to belong to. -/
  shards_pos : 0 < shards.length

namespace LockTable

variable {K L σ : Type}

/-- A table without locks, in a number of shards of which there is at least one. -/
def ofShards (count : Nat) : LockTable K L where
  shards := List.replicate (Nat.max count 1) ∅
  parked := ∅
  notified := []
  nextSignal := 0
  shards_pos := by
    rw [List.length_replicate]
    exact Nat.le_max_right count 1

/-- Whether no key is held or waited for. -/
def isEmpty (t : LockTable K L) : Bool := t.shards.all (·.isEmpty)

/-- Whether a signal has been given. -/
def isNotified (t : LockTable K L) (signal : Signal) : Bool := t.notified.contains signal

section Keys

variable [Hashable K]

/-- The number of the shard that a key belongs to.  A single shard is found without a hash. -/
def shardIndex (t : LockTable K L) (key : K) : Nat :=
  if t.shards.length = 1 then 0 else (hash key).toNat % t.shards.length

theorem shardIndex_lt (t : LockTable K L) (key : K) : t.shardIndex key < t.shards.length := by
  unfold shardIndex
  split
  · exact t.shards_pos
  · exact Nat.mod_lt _ t.shards_pos

theorem exists_shard (t : LockTable K L) (key : K) :
    ∃ shard, t.shards[t.shardIndex key]? = some shard :=
  ⟨_, List.getElem?_eq_getElem (t.shardIndex_lt key)⟩

variable [DecidableEq K]

/-- The entries of a key, in the order in which they were made. -/
def entries (t : LockTable K L) (key : K) : List (LockEntry L) :=
  ((t.shards[t.shardIndex key]?).bind (·.get? key)).getD []

/-- Puts the entries of a key in place; a key without entries is dropped. -/
def setEntries (t : LockTable K L) (key : K) (entries : List (LockEntry L)) : LockTable K L :=
  let change := fun shard : FinMap K (List (LockEntry L)) =>
    if entries.isEmpty then shard.erase key else shard.insert key entries
  { t with
    shards := t.shards.modify (t.shardIndex key) change
    shards_pos := by simpa using t.shards_pos }

@[simp] theorem shardIndex_setEntries (t : LockTable K L) (key : K) (es : List (LockEntry L))
    (key' : K) : (t.setEntries key es).shardIndex key' = t.shardIndex key' := by
  simp [shardIndex, setEntries]

theorem entries_setEntries (t : LockTable K L) (key : K) (es : List (LockEntry L)) (key' : K) :
    (t.setEntries key es).entries key' = if key = key' then es else t.entries key' := by
  obtain ⟨shard, hget⟩ := t.exists_shard key'
  unfold entries
  rw [shardIndex_setEntries]
  simp only [setEntries, List.getElem?_modify, hget]
  by_cases hkey : key = key'
  · subst hkey
    by_cases hes : es.isEmpty <;> simp_all [FinMap.get?_erase]
  · by_cases hshard : t.shardIndex key = t.shardIndex key'
    · by_cases hes : es.isEmpty <;> simp [hkey, hshard, hes, FinMap.get?_erase, FinMap.get?_insert]
    · simp [hkey, hshard]

/-- The holders of a key and their modes. -/
def holders (t : LockTable K L) (key : K) : List (L × LockMode) :=
  ((t.entries key).filter (·.granted)).map fun e => (e.owner, e.mode)

/-- Those who are queued on a key, highest precedence first. -/
def waiters (t : LockTable K L) (key : K) : List L :=
  let queued := (t.entries key).filter (!·.granted)
  (queued.mergeSort fun a b => !b.rank.before a.rank).map (·.owner)

variable [DecidableEq L]

/-- Adds a signal to those who listen to a locker's entry. -/
def listen (t : LockTable K L) (key : K) (owner : L) (signal : Signal) : LockTable K L :=
  t.setEntries key <| (t.entries key).map fun e =>
    if e.owner = owner then { e with listeners := e.listeners ++ [signal] } else e

theorem entries_listen (t : LockTable K L) (key : K) (owner : L) (signal : Signal) (key' : K) :
    (t.listen key owner signal).entries key' =
      if key = key' then
        (t.entries key).map fun e =>
          if e.owner = owner then { e with listeners := e.listeners ++ [signal] } else e
      else t.entries key' :=
  entries_setEntries t key _ key'

/-- Parks a call of a locker on a signal that has not been used before. -/
def park (t : LockTable K L) (key : K) (locker holder : L) : Signal × LockTable K L :=
  let signal := t.nextSignal
  (signal,
    { t.listen key holder signal with
      parked := t.parked.insert locker signal
      nextSignal := signal + 1 })

/-- One attempt on a key of this table. -/
def attempt [Lockers σ L] (now : Nat) (locker : L) (key : K) (mode : LockMode) (wait : Bool)
    (s : σ) (t : LockTable K L) : Verdict L × σ × LockTable K L :=
  let (verdict, c) :=
    Contest.attempt now t.parked locker mode wait ⟨s, t.entries key, []⟩
  (verdict, c.lockers,
    { t.setEntries key c.entries with notified := t.notified ++ c.woken })

/-- Takes the locker's entry on a key away; says whether there was one. -/
def release (locker : L) (key : K) (t : LockTable K L) : Bool × LockTable K L :=
  match (t.entries key).find? (·.owner = locker) with
  | none => (false, t)
  | some e =>
    (true,
      { t.setEntries key ((t.entries key).eraseP (·.owner = locker)) with
        notified := t.notified ++ e.listeners })

theorem entries_release (locker : L) (key : K) (t : LockTable K L) (key' : K) :
    (t.release locker key).2.entries key' =
      if key = key' then (t.entries key).eraseP (·.owner = locker) else t.entries key' := by
  unfold release
  cases hown : (t.entries key).find? (·.owner = locker) with
  | none =>
      have hnone := List.find?_eq_none.mp hown
      by_cases h : key = key'
      · subst h
        exact (List.eraseP_of_forall_not hnone).symm.trans (if_pos rfl).symm
      · exact (if_neg h).symm
  | some e => exact entries_setEntries t key _ key'

/-- Gives up waiting for a key: the locker is no longer parked, and its entry goes if queued. -/
def abandon (locker : L) (key : K) (t : LockTable K L) : LockTable K L :=
  let t := { t with parked := t.parked.erase locker }
  match (t.entries key).find? (·.owner = locker) with
  | none => t
  | some e => if e.granted then t else (t.release locker key).2

end Keys

/-- Takes every entry of a locker away, granted or queued. -/
def releaseAll [DecidableEq L] (locker : L) (t : LockTable K L) : LockTable K L :=
  let mine := fun e : LockEntry L => decide (e.owner = locker)
  let heard := t.shards.flatMap fun shard =>
    shard.pairs.flatMap fun (_, entries) => ((entries.find? mine).map (·.listeners)).getD []
  let keep := fun entries : List (LockEntry L) =>
    let left := entries.eraseP mine
    if left.isEmpty then none else some left
  { t with
    shards := t.shards.map (·.filterMap keep)
    shards_pos := by simpa using t.shards_pos
    parked := t.parked.erase locker
    notified := t.notified ++ heard }

theorem entries_releaseAll [Hashable K] [DecidableEq K] [DecidableEq L] (locker : L)
    (t : LockTable K L) (key : K) :
    (t.releaseAll locker).entries key = (t.entries key).eraseP (·.owner = locker) := by
  obtain ⟨shard, hget⟩ := t.exists_shard key
  have hindex : (t.releaseAll locker).shardIndex key = t.shardIndex key := by
    simp [shardIndex, releaseAll]
  unfold entries
  rw [hindex]
  simp only [releaseAll, List.getElem?_map, hget, Option.map_some, Option.bind_some,
    FinMap.get?_filterMap]
  cases shard.get? key with
  | none => rfl
  | some es => cases h : es.eraseP (·.owner = locker) <;> simp [h]

end LockTable

end ObjectStore
