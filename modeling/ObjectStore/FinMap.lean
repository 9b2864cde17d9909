/-
Finite maps, kept as a list of pairs in which no key occurs twice.

The lemmas after the changes say what a look-up finds then; nothing else needs to open the list.
Keys that are ordered have a least one, and a least one beyond a bound.
-/

namespace ObjectStore

/-- A finite map from `K` to `V`. -/
structure FinMap (K V : Type) where
  pairs : List (K × V)
  /-- No key occurs twice. -/
  nodup : (pairs.map (·.1)).Nodup
  deriving DecidableEq, Repr

namespace FinMap

variable {K V : Type}

/-- The map without any key. -/
def empty : FinMap K V := ⟨[], List.nodup_nil⟩

instance : EmptyCollection (FinMap K V) := ⟨empty⟩

instance : Inhabited (FinMap K V) := ⟨empty⟩

/-- How many keys the map has. -/
def size (m : FinMap K V) : Nat := m.pairs.length

/-- Whether the map has no key. -/
def isEmpty (m : FinMap K V) : Bool := m.pairs.isEmpty

/-- The keys, in no order that means anything. -/
def keys (m : FinMap K V) : List K := m.pairs.map (·.1)

/-- Keeps the pairs that pass a test. -/
def filter (p : K → V → Bool) (m : FinMap K V) : FinMap K V where
  pairs := m.pairs.filter fun (k, v) => p k v
  nodup := m.nodup.sublist (List.filter_sublist.map _)

theorem sublist_keys_filterMap (f : V → Option V) (l : List (K × V)) :
    ((l.filterMap fun (k, v) => (f v).map (k, ·)).map (·.1)).Sublist (l.map (·.1)) := by
  induction l with
  | nil => simp
  | cons p rest ih =>
      obtain ⟨k, v⟩ := p
      cases h : f v with
      | none => simpa [h] using ih.cons k
      | some w => simpa [h] using ih.cons_cons k

/-- Changes every value and drops the keys for which nothing is left. -/
def filterMap (f : V → Option V) (m : FinMap K V) : FinMap K V where
  pairs := m.pairs.filterMap fun (k, v) => (f v).map (k, ·)
  nodup := m.nodup.sublist (sublist_keys_filterMap f m.pairs)

variable [DecidableEq K]

/-- The value of a key. -/
def get? (m : FinMap K V) (k : K) : Option V :=
  (m.pairs.find? (·.1 = k)).map (·.2)

/-- Whether a key has a value. -/
def contains (m : FinMap K V) (k : K) : Bool := (m.get? k).isSome

/-- Takes a key out. -/
def erase (m : FinMap K V) (k : K) : FinMap K V := m.filter fun k' _ => decide (k' ≠ k)

/-- Gives a key a value, in place of the one it had. -/
def insert (m : FinMap K V) (k : K) (v : V) : FinMap K V where
  pairs := (k, v) :: (m.erase k).pairs
  nodup := by
    refine List.nodup_cons.mpr ⟨?_, (m.erase k).nodup⟩
    simp [erase, filter]

/-- Carries one change out; a change without value takes the key out. -/
def change (k : K) (v : Option V) (m : FinMap K V) : FinMap K V :=
  match v with
  | some v => m.insert k v
  | none => m.erase k

/-! ### What a look-up finds -/

theorem get?_eq_some_iff (m : FinMap K V) (k : K) (v : V) :
    m.get? k = some v ↔ (k, v) ∈ m.pairs := by
  obtain ⟨pairs, nodup⟩ := m
  unfold get?
  induction pairs with
  | nil => simp
  | cons p rest ih =>
      obtain ⟨k₀, v₀⟩ := p
      obtain ⟨hnew, hrest⟩ := List.nodup_cons.mp nodup
      by_cases h : k₀ = k
      · subst h
        have hnot : (k₀, v) ∉ rest := fun hmem => hnew (List.mem_map.mpr ⟨_, hmem, rfl⟩)
        simp [hnot, eq_comm]
      · simpa [h, Ne.symm h] using ih hrest

@[simp] theorem get?_empty (k : K) : (∅ : FinMap K V).get? k = none := rfl

theorem get?_filter (p : K → V → Bool) (m : FinMap K V) (k : K) :
    (m.filter p).get? k = (m.get? k).filter (p k) := by
  ext v
  rw [get?_eq_some_iff, Option.filter_eq_some_iff, get?_eq_some_iff]
  simp [filter]

theorem get?_filterMap (f : V → Option V) (m : FinMap K V) (k : K) :
    (m.filterMap f).get? k = (m.get? k).bind f := by
  ext w
  simp only [get?_eq_some_iff, Option.bind_eq_some_iff, filterMap, List.mem_filterMap,
    Option.map_eq_some_iff]
  constructor
  · rintro ⟨⟨k₀, v⟩, hmem, w₀, hw, heq⟩
    obtain ⟨rfl, rfl⟩ := Prod.mk.inj heq
    exact ⟨v, hmem, hw⟩
  · rintro ⟨v, hmem, hw⟩
    exact ⟨(k, v), hmem, w, hw, rfl⟩

theorem get?_erase (m : FinMap K V) (k k' : K) :
    (m.erase k).get? k' = if k = k' then none else m.get? k' := by
  unfold erase
  rw [get?_filter]
  by_cases h : k = k'
  · simp [h]
  · cases m.get? k' <;> simp [h, Ne.symm h]

/-- What is left when a key goes was there before. -/
theorem get?_of_get?_erase {m : FinMap K V} {k k' : K} {v : V}
    (h : (m.erase k).get? k' = some v) : m.get? k' = some v := by
  rw [get?_erase] at h
  split at h
  · exact absurd h (by simp)
  · exact h

theorem get?_insert (m : FinMap K V) (k : K) (v : V) (k' : K) :
    (m.insert k v).get? k' = if k = k' then some v else m.get? k' := by
  by_cases h : k = k'
  · simp [get?, insert, h]
  · rw [if_neg h, ← (get?_erase m k k').trans (if_neg h)]
    simp [get?, insert, h]

@[simp] theorem get?_insert_self (m : FinMap K V) (k : K) (v : V) :
    (m.insert k v).get? k = some v := by
  simp [get?_insert]

theorem get?_change (m : FinMap K V) (k : K) (v : Option V) (k' : K) :
    (m.change k v).get? k' = if k = k' then v else m.get? k' := by
  cases v
  · exact get?_erase m k k'
  · exact get?_insert m k _ k'

@[simp] theorem get?_change_self (m : FinMap K V) (k : K) (v : Option V) :
    (m.change k v).get? k = v := by
  simp [get?_change]

theorem mem_keys (m : FinMap K V) (k : K) : k ∈ m.keys ↔ (m.get? k).isSome := by
  simp [keys, Option.isSome_iff_exists, get?_eq_some_iff]

end FinMap

/-! ### The least of some keys -/

section Least

variable {K : Type} [LT K] [DecidableLT K]

/-- The least member of a list, the first of equals. -/
def least : List K → Option K
  | [] => none
  | k :: rest =>
    match least rest with
    | none => some k
    | some other => some (if other < k then other else k)

/-- The least member that is greater than a bound, or the least of all without a bound. -/
def leastAfter (bound : Option K) (keys : List K) : Option K :=
  match bound with
  | none => least keys
  | some b => least (keys.filter fun k => decide (b < k))

end Least

end ObjectStore
