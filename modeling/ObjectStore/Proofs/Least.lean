/-
The least key beyond a bound, where keys are strictly and totally ordered.

`IsNext` says what it is to be the next key that has a property: the least of those that are greater
than the bound, or nothing if there are none.  There is only one, and `leastAfter` finds it.
-/
import Mathlib.Order.Defs.Unbundled
import ObjectStore.FinMap

namespace ObjectStore

variable {K : Type} [LT K]

/-- Whether a key is greater than a bound, where no bound is before all keys. -/
def IsBeyond (after : Option K) (k : K) : Prop := ∀ a, after = some a → a < k

/-- `next` is the least key beyond a bound that has the property, or nothing for want of one. -/
structure IsNext (p : K → Prop) (after next : Option K) : Prop where
  found : ∀ k, next = some k → IsBeyond after k ∧ p k
  least : ∀ k, IsBeyond after k → p k → ∃ first, next = some first ∧ ¬ k < first

/-- Only what is beyond the bound counts. -/
theorem IsNext.congr {p q : K → Prop} {after next : Option K} (h : IsNext p after next)
    (hpq : ∀ k, IsBeyond after k → (q k ↔ p k)) : IsNext q after next where
  found := by
    intro k hk
    obtain ⟨hbeyond, hp⟩ := h.found k hk
    exact ⟨hbeyond, (hpq k hbeyond).mpr hp⟩
  least := fun k hbeyond hq => h.least k hbeyond ((hpq k hbeyond).mp hq)

theorem IsNext.unique [IsStrictTotalOrder K (· < ·)] {p : K → Prop} {after next next' : Option K}
    (h : IsNext p after next) (h' : IsNext p after next') : next = next' := by
  have hsome : ∀ {next next' : Option K}, IsNext p after next → IsNext p after next' →
      ∀ k, next = some k → next' = some k := by
    intro next next' h h' k hk
    obtain ⟨hbeyond, hp⟩ := h.found k hk
    obtain ⟨k', hk', hnot⟩ := h'.least k hbeyond hp
    obtain ⟨hbeyond', hp'⟩ := h'.found k' hk'
    obtain ⟨first, hfirst, hnot'⟩ := h.least k' hbeyond' hp'
    obtain rfl : k = first := Option.some.inj (hk.symm.trans hfirst)
    rw [hk', Std.Trichotomous.trichotomous k k' hnot hnot']
  cases next with
  | some k => exact (hsome h h' k rfl).symm
  | none =>
      cases next' with
      | none => rfl
      | some k => exact hsome h' h k rfl

variable [DecidableLT K]

theorem mem_of_least {keys : List K} {k : K} (h : least keys = some k) : k ∈ keys := by
  induction keys generalizing k with
  | nil => cases h
  | cons k₀ rest ih =>
      unfold least at h
      cases hrest : least rest with
      | none =>
          rw [hrest] at h
          cases h
          exact List.mem_cons_self
      | some other =>
          rw [hrest] at h
          simp only [Option.some.injEq] at h
          split at h
          · exact List.mem_cons_of_mem k₀ (ih (hrest.trans (congrArg some h)))
          · exact h ▸ List.mem_cons_self

theorem least_eq_none_iff {keys : List K} : least keys = none ↔ keys = [] := by
  cases keys with
  | nil => exact ⟨fun _ => rfl, fun _ => rfl⟩
  | cons k rest =>
      unfold least
      cases least rest <;> simp

variable [IsStrictTotalOrder K (· < ·)]

theorem not_lt_least {keys : List K} {k other : K} (h : least keys = some k)
    (hother : other ∈ keys) : ¬ other < k := by
  induction keys generalizing k with
  | nil => cases h
  | cons k₀ rest ih =>
      unfold least at h
      cases hrest : least rest with
      | none =>
          rw [hrest] at h
          cases h
          obtain rfl : rest = [] := least_eq_none_iff.mp hrest
          obtain rfl : other = k₀ := List.mem_singleton.mp hother
          exact irrefl other
      | some first =>
          rw [hrest] at h
          simp only [Option.some.injEq] at h
          intro hlt
          split at h
          · rename_i hfirst
            subst h
            rcases List.mem_cons.mp hother with rfl | hin
            · exact irrefl other (IsTrans.trans _ _ _ hlt hfirst)
            · exact ih hrest hin hlt
          · rename_i hfirst
            subst h
            rcases List.mem_cons.mp hother with rfl | hin
            · exact irrefl other hlt
            · -- Whatever is before the head and not before `first` makes `first` come first.
              rcases trichotomous_of (· < ·) first other with hlt' | rfl | hgt
              · exact hfirst (IsTrans.trans _ _ _ hlt' hlt)
              · exact hfirst hlt
              · exact ih hrest hin hgt

/-- **The least key after a bound is the next one.** -/
theorem isNext_leastAfter (after : Option K) (keys : List K) :
    IsNext (· ∈ keys) after (leastAfter after keys) := by
  have hleast : ∃ candidates, leastAfter after keys = least candidates ∧
      ∀ k, k ∈ candidates ↔ k ∈ keys ∧ IsBeyond after k := by
    cases after with
    | none => exact ⟨keys, rfl, fun k => by simp [IsBeyond]⟩
    | some a => exact ⟨keys.filter fun k => decide (a < k), rfl, fun k => by simp [IsBeyond]⟩
  obtain ⟨candidates, heq, hmem⟩ := hleast
  rw [heq]
  constructor
  · intro k hk
    exact ((hmem k).mp (mem_of_least hk)).symm
  · intro k hbeyond hin
    have hcandidate := (hmem k).mpr ⟨hin, hbeyond⟩
    cases h : least candidates with
    | none =>
        rw [least_eq_none_iff.mp h] at hcandidate
        exact absurd hcandidate List.not_mem_nil
    | some first => exact ⟨first, rfl, not_lt_least h hcandidate⟩

end ObjectStore
