/-
What calls of the memory backend do to the names.

A transaction sees its own writes over the committed names.  Two calls write a name, those that end
a transaction carry its writes out or forget them, and all others leave the names alone;
`KeepsNames` says so of two states of the backend.
-/
import ObjectStore.Backend.Memory

namespace ObjectStore

namespace FinMap

variable {K V : Type} [DecidableEq K]

theorem under?_of_get?_eq_none {m : FinMap K V} {changes : FinMap K (Option V)} {k : K}
    (h : changes.get? k = none) : m.under? changes k = m.get? k := by
  unfold under?
  rw [h]

theorem under?_insert (m : FinMap K V) (changes : FinMap K (Option V)) (k : K) (v : Option V)
    (k' : K) : m.under? (changes.insert k v) k' = if k = k' then v else m.under? changes k' := by
  unfold under?
  rw [get?_insert]
  by_cases h : k = k' <;> simp [h]

theorem get?_eq_none_of_isEmpty {m : FinMap K V} (h : m.isEmpty = true) (k : K) :
    m.get? k = none := by
  unfold isEmpty at h
  unfold get?
  rw [List.isEmpty_iff.mp h]
  rfl

theorem mem_keysUnder {m : FinMap K V} {changes : FinMap K (Option V)} {k : K} :
    k ∈ m.keysUnder changes ↔ (m.under? changes k).isSome = true := by
  unfold keysUnder under?
  rw [List.mem_append, List.mem_filter, List.mem_filter, mem_keys, mem_keys]
  cases h : changes.get? k with
  | none => simp
  | some change => cases change <;> simp

end FinMap

namespace Memory

variable {m m' m'' : Memory} {t u : TxnId} {name : Name}

@[simp] theorem writes_write (m : Memory) (t : TxnId) (f : WriteSet → WriteSet) (u : TxnId) :
    (m.write t f).writes u = if t = u then f (m.writes t) else m.writes u := by
  unfold write writes
  simp only [FinMap.get?_insert]
  by_cases h : t = u <;> simp [h]

@[simp] theorem writes_discard (m : Memory) (t u : TxnId) :
    (m.discard t).writes u = if t = u then .empty else m.writes u := by
  unfold discard writes
  simp only [FinMap.get?_erase]
  by_cases h : t = u <;> simp [h]

theorem pending_write_of_ne {f : WriteSet → WriteSet} (h : t ≠ u) :
    (m.write t f).pending.get? u = m.pending.get? u := by
  unfold write
  rw [FinMap.get?_insert, if_neg h]

theorem pending_discard_of_ne (h : t ≠ u) : (m.discard t).pending.get? u = m.pending.get? u := by
  unfold discard
  rw [FinMap.get?_erase, if_neg h]

/-- A written name is seen as it was written, by the one who wrote it. -/
theorem binding?_writeName (m : Memory) (t : TxnId) (name : Name) (oid : Option ObjectId)
    (u : TxnId) (name' : Name) :
    (m.write t (·.writeName name oid)).binding? u name' =
      if t = u ∧ name = name' then oid else m.binding? u name' := by
  unfold binding?
  rw [writes_write]
  by_cases ht : t = u
  · subst ht
    simp only [WriteSet.writeName, true_and]
    exact FinMap.under?_insert m.names (m.writes t).names name oid name'
  · simp only [ht, if_false, false_and]
    rfl

theorem binding?_of_not_written (h : (m.writes t).names.get? name = none) :
    m.binding? t name = m.names.get? name :=
  FinMap.under?_of_get?_eq_none h

/-! ### Calls that leave the names alone -/

/-- A call of `t` has changed nothing that concerns names. -/
structure KeepsNames (t : TxnId) (m m' : Memory) : Prop where
  names : m'.names = m.names
  written : (m'.writes t).names = (m.writes t).names
  others : ∀ u, t ≠ u → m'.pending.get? u = m.pending.get? u
  isShutDown : m'.isShutDown = m.isShutDown

theorem writes_congr (h : m'.pending.get? u = m.pending.get? u) : m'.writes u = m.writes u := by
  unfold writes
  rw [h]

theorem binding?_congr (hnames : m'.names = m.names)
    (hwritten : (m'.writes u).names = (m.writes u).names) (name : Name) :
    m'.binding? u name = m.binding? u name := by
  unfold Memory.binding?
  rw [hnames, hwritten]

namespace KeepsNames

theorem refl (t : TxnId) (m : Memory) : KeepsNames t m m := ⟨rfl, rfl, fun _ _ => rfl, rfl⟩

theorem trans (h : KeepsNames t m m') (h' : KeepsNames t m' m'') : KeepsNames t m m'' :=
  ⟨h'.names.trans h.names, h'.written.trans h.written,
    fun u hu => (h'.others u hu).trans (h.others u hu), h'.isShutDown.trans h.isShutDown⟩

theorem writes_names (h : KeepsNames t m m') (u : TxnId) :
    (m'.writes u).names = (m.writes u).names := by
  by_cases hu : t = u
  · rw [← hu]
    exact h.written
  · rw [writes_congr (h.others u hu)]

theorem binding? (h : KeepsNames t m m') (u : TxnId) (name : Name) :
    m'.binding? u name = m.binding? u name :=
  binding?_congr h.names (h.writes_names u) name

theorem writeObject (t : TxnId) (m : Memory) (oid : ObjectId) (data : Option Bytes) :
    KeepsNames t m (m.write t (·.writeObject oid data)) where
  names := rfl
  written := by
    rw [writes_write, if_pos rfl]
    rfl
  others := fun _ hu => pending_write_of_ne hu
  isShutDown := rfl

end KeepsNames

theorem keepsNames_create (t : TxnId) (m : Memory) : KeepsNames t m (m.create t).2 := by
  have hnumber : KeepsNames t m { m with nextOid := m.nextOid.next } :=
    ⟨rfl, rfl, fun _ _ => rfl, rfl⟩
  exact hnumber.trans (KeepsNames.writeObject t _ m.nextOid (some []))

theorem keepsNames_set (t : TxnId) (oid : ObjectId) (data : Bytes) (m : Memory) :
    KeepsNames t m (m.set t oid data).2 := by
  unfold Memory.set
  split
  · exact KeepsNames.writeObject t m oid (some data)
  · exact KeepsNames.refl t m

theorem keepsNames_setMany (t : TxnId) (items : List (ObjectId × Bytes)) :
    ∀ m : Memory, KeepsNames t m (setMany t items m).2 := by
  induction items with
  | nil => exact KeepsNames.refl t
  | cons item rest ih =>
      intro m
      obtain ⟨oid, data⟩ := item
      have hset := keepsNames_set t oid data m
      unfold setMany
      split
      · rename_i hfailed
        rwa [hfailed] at hset
      · rename_i hok
        rw [hok] at hset
        exact hset.trans (ih _)

theorem keepsNames_remove (t : TxnId) (oid : ObjectId) (m : Memory) :
    KeepsNames t m (m.remove t oid).2 := by
  unfold Memory.remove
  split
  · exact KeepsNames.refl t m
  · exact KeepsNames.writeObject t m oid none

theorem keepsNames_classId (t : TxnId) (info : Bytes) (m : Memory) :
    KeepsNames t m (m.classId info).2 := by
  unfold Memory.classId
  split
  · exact KeepsNames.refl t m
  · simp only
    split
    · exact ⟨rfl, rfl, fun _ _ => rfl, rfl⟩
    · exact KeepsNames.refl t m

/-- Whether a call can change nothing that concerns names. -/
def isNameless {α : Type} : BackendCall α → Bool
  | .setBinding _ _ | .removeBinding _ | .shutdown => false
  | .prepare | .commit | .prepareAndCommit | .abort => false
  | _ => true

/-- Calls that write no name and end no transaction leave the names alone. -/
theorem keepsNames_perform {α : Type} {c : BackendCall α} (h : isNameless c = true) (t : TxnId)
    (m : Memory) : KeepsNames t m (perform c t m).2 := by
  unfold perform
  split
  · exact KeepsNames.refl t m
  · cases c with
    | create => exact keepsNames_create t m
    | set oid data => exact keepsNames_set t oid data m
    | setMany items => exact keepsNames_setMany t items m
    | remove oid => exact keepsNames_remove t oid m
    | classId info => exact keepsNames_classId t info m
    | setBinding => exact absurd h (by simp [isNameless])
    | removeBinding => exact absurd h (by simp [isNameless])
    | shutdown => exact absurd h (by simp [isNameless])
    | prepare => exact absurd h (by simp [isNameless])
    | commit => exact absurd h (by simp [isNameless])
    | prepareAndCommit => exact absurd h (by simp [isNameless])
    | abort => exact absurd h (by simp [isNameless])
    | _ => exact KeepsNames.refl t m

end Memory

end ObjectStore
