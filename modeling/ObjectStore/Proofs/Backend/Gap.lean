/-
The gaps between names at the memory backend.

A name may be committed, and then everybody sees it who has not removed it; or it is a new one, and
only its transaction sees it.  So the name that is next for everybody and the one that is next in the
sight of a transaction may differ, but only by what the transaction has written.

`Held` is what becomes of a gap that a transaction has found empty if nobody takes anything away:
names of others may have come up in it, and `Intruded` says that there are some.
-/
import ObjectStore.Proofs.Backend.Names
import ObjectStore.Proofs.Naming.Order

namespace ObjectStore

namespace Memory

variable {m m' : Memory} {t : TxnId} {name : Name} {after next candidate : Option Name}
variable {late late' : Prop}

/-- Whether a name is bound for everybody. -/
def Committed (m : Memory) (name : Name) : Prop := (m.names.get? name).isSome = true

/-- Whether a name is bound for a transaction. -/
def Sees (m : Memory) (t : TxnId) (name : Name) : Prop := (m.binding? t name).isSome = true

/-- A name that is bound for a transaction and is not committed. -/
structure Inserted (m : Memory) (t : TxnId) (name : Name) : Prop where
  sees : m.Sees t name
  isNew : ¬ m.Committed name

/-- The next committed name. -/
def nextCommitted? (m : Memory) (after : Option Name) : Option Name :=
  leastAfter after m.names.keys

theorem follows_nextCommitted? (m : Memory) (after : Option Name) :
    Follows m.Committed after (m.nextCommitted? after) :=
  (follows_leastAfter after m.names.keys).congr fun name => (FinMap.mem_keys m.names name).symm

theorem follows_nextName? (m : Memory) (t : TxnId) (after : Option Name) :
    Follows (m.Sees t) after (m.nextName? t after) :=
  (follows_leastAfter after (m.names.keysUnder (m.writes t).names)).congr
    fun _ => FinMap.mem_keysUnder.symm

/-- What a transaction sees otherwise than it is committed, the transaction has written. -/
theorem isSome_written (h : m.binding? t name ≠ m.names.get? name) :
    ((m.writes t).names.get? name).isSome = true := by
  by_contra hnot
  exact h (binding?_of_not_written (Option.not_isSome_iff_eq_none.mp hnot))

theorem Inserted.ne (h : m.Inserted t name) : m.binding? t name ≠ m.names.get? name := by
  intro heq
  exact h.isNew (by rw [Committed, ← heq]; exact h.sees)

theorem ne_of_removed (hcommitted : m.Committed name) (hunseen : ¬ m.Sees t name) :
    m.binding? t name ≠ m.names.get? name := by
  intro heq
  exact hunseen (by rw [Sees, heq]; exact hcommitted)

/-! ### What has become of a gap -/

/-- Others have bound a name between two positions for everybody. -/
def Intruded (m : Memory) (t : TxnId) (after next : Option Name) : Prop :=
  ∃ name, name.IsAfter after ∧ name.IsBefore next ∧ m.Committed name ∧
    (m.writes t).names.get? name = none

/-- A transaction still sees the next name that it was told of, and before it only names that it has
not written itself; `late` says whether there may be any. -/
structure Held (late : Prop) (m : Memory) (t : TxnId) (after next : Option Name) : Prop where
  found : ∀ name, next = some name → name.IsAfter after ∧ m.Sees t name
  gap : ∀ name, name.IsAfter after → name.IsBefore next → m.Sees t name →
    (m.writes t).names.get? name = none ∧ late

/-- What a transaction may take for the next name that it was told of before. -/
def Takes (late : Prop) (m : Memory) (t : TxnId) (after next candidate : Option Name) : Prop :=
  candidate = next ∨ late ∧ ∃ name, candidate = some name ∧ name.IsAfter after ∧
    name.IsBefore next ∧ (m.writes t).names.get? name = none

namespace Held

theorem of_follows (h : Follows (m.Sees t) after next) : Held late m t after next where
  found := h.found
  gap := fun name hafter hbefore hsees => absurd hsees (h.gap name hafter hbefore)

theorem mono (h : Held late m t after next) (hlate : late → late') : Held late' m t after next where
  found := h.found
  gap := fun name hafter hbefore hsees => (h.gap name hafter hbefore hsees).imp_right hlate

theorem congr (h : Held late m t after next) (hnames : m'.names = m.names)
    (hwritten : (m'.writes t).names = (m.writes t).names) : Held late m' t after next := by
  have hview := binding?_congr (u := t) hnames hwritten
  constructor
  · intro name hname
    rw [Sees, hview]
    exact h.found name hname
  · intro name hafter hbefore hsees
    rw [Sees, hview] at hsees
    rw [hwritten]
    exact h.gap name hafter hbefore hsees

/-- What follows now is what followed before, or a name of others in front of it. -/
theorem takes (h : Held late m t after next) (hfollows : Follows (m.Sees t) after candidate) :
    Takes late m t after next candidate := by
  rcases position_trichotomy candidate next with heq | ⟨name, rfl, hbefore⟩ | ⟨name, rfl, hbefore⟩
  · exact Or.inl heq
  · obtain ⟨hafter, hsees⟩ := hfollows.found name rfl
    obtain ⟨hunwritten, hlate⟩ := h.gap name hafter hbefore hsees
    exact Or.inr ⟨hlate, name, rfl, hafter, hbefore, hunwritten⟩
  · obtain ⟨hafter, hsees⟩ := h.found name rfl
    exact absurd hsees (hfollows.gap name hafter hbefore)

end Held

namespace Takes

theorem mono (h : Takes late m t after next candidate) (hlate : late → late') :
    Takes late' m t after next candidate :=
  h.imp_right (And.imp_left hlate)

theorem congr (h : Takes late m t after next candidate)
    (hwritten : (m'.writes t).names = (m.writes t).names) :
    Takes late m' t after next candidate := by
  unfold Takes at h ⊢
  rwa [hwritten]

/-- If the candidate is the next name, then it is another one exactly if others have intruded. -/
theorem eq_iff (h : Takes late m t after next candidate)
    (hfollows : Follows (m.Sees t) after candidate) :
    candidate = next ↔ ¬ m.Intruded t after next := by
  constructor
  · rintro rfl ⟨name, hafter, hbefore, hcommitted, hunwritten⟩
    refine hfollows.gap name hafter hbefore ?_
    rw [Sees, binding?_of_not_written hunwritten]
    exact hcommitted
  · intro hno
    refine h.resolve_right ?_
    rintro ⟨-, name, rfl, hafter, hbefore, hunwritten⟩
    refine hno ⟨name, hafter, hbefore, ?_, hunwritten⟩
    rw [Committed, ← binding?_of_not_written hunwritten]
    exact (hfollows.found name rfl).2

end Takes

end Memory

end ObjectStore
