/-
What a transaction has written and not yet committed.

The writes lie over the committed maps: a key that was written has the value written last, a key
that was removed has none, and every other key has its committed value.
-/
import ObjectStore.FinMap
import ObjectStore.Failure

namespace ObjectStore

namespace FinMap

variable {K V : Type} [DecidableEq K]

/-- The value of a key when changes lie over a map; a change without value is a removal. -/
def under? (m : FinMap K V) (changes : FinMap K (Option V)) (k : K) : Option V :=
  match changes.get? k with
  | some change => change
  | none => m.get? k

/-- The keys that have a value when changes lie over a map. -/
def keysUnder (m : FinMap K V) (changes : FinMap K (Option V)) : List K :=
  (m.keys.filter fun k => (changes.get? k).all Option.isSome) ++
    (changes.keys.filter fun k => (changes.get? k).any Option.isSome)

/-- The map with the changes carried out. -/
def merge (m : FinMap K V) (changes : FinMap K (Option V)) : FinMap K V :=
  changes.pairs.foldr (fun (k, v) m => m.change k v) m

theorem get?_merge (m : FinMap K V) (changes : FinMap K (Option V)) (k : K) :
    (m.merge changes).get? k = m.under? changes k := by
  obtain ⟨pairs, nodup⟩ := changes
  induction pairs with
  | nil => rfl
  | cons p rest ih =>
      obtain ⟨k₀, v⟩ := p
      have hrest := ih (List.nodup_cons.mp nodup).2
      refine (get?_change _ k₀ v k).trans ?_
      by_cases h : k₀ = k
      · simp [under?, get?, h]
      · simpa [under?, get?, merge, h] using hrest

end FinMap

/-- The writes of one transaction. -/
structure WriteSet where
  objects : FinMap ObjectId (Option Bytes)
  names : FinMap Name (Option ObjectId)
  /-- Whether they have been prepared for a commit. -/
  prepared : Bool
  deriving DecidableEq

namespace WriteSet

/-- No writes. -/
def empty : WriteSet := ⟨∅, ∅, false⟩

instance : Inhabited WriteSet := ⟨empty⟩

/-- Whether nothing has been written. -/
def isEmpty (w : WriteSet) : Bool := w.objects.isEmpty && w.names.isEmpty

/-- Writes an object, or removes it. -/
def writeObject (oid : ObjectId) (data : Option Bytes) (w : WriteSet) : WriteSet :=
  { w with objects := w.objects.insert oid data }

/-- Writes a binding, or removes it. -/
def writeName (name : Name) (oid : Option ObjectId) (w : WriteSet) : WriteSet :=
  { w with names := w.names.insert name oid }

end WriteSet

end ObjectStore
