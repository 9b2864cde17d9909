/-
The order of names, and what follows a position among them.

Names are strictly and totally ordered, because texts of the same bytes are the same text.  A
position among them is a name or, for want of one, the end.

`Follows` says which position comes first after another one, among the names that have a property.
There is exactly one, and the question for the next bound name answers it.
-/
import Mathlib.Data.List.Lex
import ObjectStore.Naming.Name
import ObjectStore.Proofs.Least

namespace ObjectStore

theorem Text.utf8_injective {s t : String} (h : Text.utf8 s = Text.utf8 t) : s = t := by
  have hbytes : s.toList.utf8Encode = t.toList.utf8Encode := congrArg List.toByteArray h
  have hs : (String.ofList s.toList).toByteArray = s.toList.utf8Encode := String.toByteArray_ofList
  have ht : (String.ofList t.toList).toByteArray = t.toList.utf8Encode := String.toByteArray_ofList
  have heq : String.ofList s.toList = String.ofList t.toList :=
    String.toByteArray_inj.mp (hs.trans (hbytes.trans ht.symm))
  simpa using heq

namespace Name

variable {a b c : Name}

theorem lt_irrefl (a : Name) : ¬ a < a := List.lt_irrefl (Text.utf8 a.text)

theorem lt_trans (h : a < b) (h' : b < c) : a < c := List.lt_trans h h'

theorem ne_of_lt (h : a < b) : a ≠ b := by
  rintro rfl
  exact lt_irrefl a h

theorem lt_trichotomy (a b : Name) : a < b ∨ a = b ∨ b < a := by
  by_cases h : Text.utf8 a.text < Text.utf8 b.text
  · exact Or.inl h
  · by_cases h' : Text.utf8 b.text < Text.utf8 a.text
    · exact Or.inr (Or.inr h')
    · have hle : Text.utf8 a.text ≤ Text.utf8 b.text := h'
      have hge : Text.utf8 b.text ≤ Text.utf8 a.text := h
      have htext := Text.utf8_injective (List.le_antisymm hle hge)
      obtain ⟨a⟩ := a
      obtain ⟨b⟩ := b
      exact Or.inr (Or.inl (congrArg Name.mk htext))

instance : IsStrictTotalOrder Name (· < ·) where
  irrefl := lt_irrefl
  trans := fun _ _ _ => lt_trans
  trichotomous := fun a b hnot hnot' =>
    ((lt_trichotomy a b).resolve_left hnot).resolve_right hnot'

end Name

/-! ### Keys -/

namespace NameKey

/-- A key begins with two `z` or it is the name itself, which begins with none. -/
theorem ofName_cases (name : Name) :
    (∃ rest, name.text.toList = 'z' :: rest ∧ (ofName name).text.toList = 'z' :: 'z' :: rest) ∨
      (∀ rest, name.text.toList ≠ 'z' :: rest) ∧ (ofName name).text.toList = name.text.toList := by
  unfold ofName
  split
  · rename_i rest hz
    exact Or.inl ⟨rest, hz, String.toList_ofList⟩
  · rename_i hno
    exact Or.inr ⟨hno, rfl⟩

theorem ofName_injective {a b : Name} (h : ofName a = ofName b) : a = b := by
  have hkeys : (ofName a).text.toList = (ofName b).text.toList := by
    rw [h]
  have hchars : a.text.toList = b.text.toList := by
    rcases ofName_cases a with ⟨rest, ha, hkey⟩ | ⟨hno, hkey⟩
    · rcases ofName_cases b with ⟨rest', hb, hkey'⟩ | ⟨hno', hkey'⟩
      · rw [hkey, hkey'] at hkeys
        rw [ha, hb]
        exact (List.cons.inj hkeys).2
      · rw [hkey, hkey'] at hkeys
        exact absurd hkeys.symm (hno' _)
    · rcases ofName_cases b with ⟨rest', hb, hkey'⟩ | ⟨hno', hkey'⟩
      · rw [hkey, hkey'] at hkeys
        exact absurd hkeys (hno _)
      · rwa [hkey, hkey'] at hkeys
  obtain ⟨a⟩ := a
  obtain ⟨b⟩ := b
  exact congrArg Name.mk (String.toList_inj.mp hchars)

theorem ofName_ne_endOfNames (name : Name) : ofName name ≠ endOfNames := by
  intro h
  have hkeys : (ofName name).text.toList = 'z' :: '.' :: ['e', 'n', 'd'] := by
    rw [h]
    rfl
  rcases ofName_cases name with ⟨rest, -, hkey⟩ | ⟨hno, hkey⟩
  · rw [hkey] at hkeys
    exact absurd (List.cons.inj (List.cons.inj hkeys).2).1 (by decide)
  · rw [hkey] at hkeys
    exact hno _ hkeys

theorem ofPosition_injective {p q : Option Name} (h : ofPosition p = ofPosition q) : p = q := by
  cases p with
  | none =>
      cases q with
      | none => rfl
      | some b => exact absurd h.symm (ofName_ne_endOfNames b)
  | some a =>
      cases q with
      | none => exact absurd h (ofName_ne_endOfNames a)
      | some b => exact congrArg some (ofName_injective h)

end NameKey

/-! ### Positions -/

/-- Whether a name comes after a position, where no position is before all names. -/
def Name.IsAfter (name : Name) : Option Name → Prop
  | none => True
  | some a => a < name

theorem Name.isAfter_iff {name : Name} {after : Option Name} :
    name.IsAfter after ↔ IsBeyond after name := by
  cases after <;> simp [Name.IsAfter, IsBeyond]

/-- Whether a name comes before a position, where no position is the end. -/
def Name.IsBefore (name : Name) : Option Name → Prop
  | none => True
  | some b => name < b

/-- `next` is the first position after `after` whose name has the property, or the end. -/
structure Follows (p : Name → Prop) (after next : Option Name) : Prop where
  found : ∀ name, next = some name → name.IsAfter after ∧ p name
  gap : ∀ name, name.IsAfter after → name.IsBefore next → ¬ p name

/-- Of two positions one comes first, unless they are the same. -/
theorem position_trichotomy (q r : Option Name) :
    q = r ∨ (∃ name, q = some name ∧ name.IsBefore r) ∨ ∃ name, r = some name ∧ name.IsBefore q := by
  cases q with
  | none =>
      cases r with
      | none => exact Or.inl rfl
      | some b => exact Or.inr (Or.inr ⟨b, rfl, trivial⟩)
  | some a =>
      cases r with
      | none => exact Or.inr (Or.inl ⟨a, rfl, trivial⟩)
      | some b =>
          rcases Name.lt_trichotomy a b with hlt | heq | hgt
          · exact Or.inr (Or.inl ⟨a, rfl, hlt⟩)
          · exact Or.inl (congrArg some heq)
          · exact Or.inr (Or.inr ⟨b, rfl, hgt⟩)

theorem Name.IsAfter.trans {a b : Name} {after : Option Name} (h : a.IsAfter after) (h' : a < b) :
    b.IsAfter after := by
  cases after with
  | none => trivial
  | some x => exact Name.lt_trans h h'

namespace Follows

variable {p q : Name → Prop} {after next next' : Option Name}

theorem unique (h : Follows p after next) (h' : Follows p after next') : next = next' := by
  rcases position_trichotomy next next' with heq | ⟨name, rfl, hbefore⟩ | ⟨name, rfl, hbefore⟩
  · exact heq
  · obtain ⟨hafter, hp⟩ := h.found name rfl
    exact absurd hp (h'.gap name hafter hbefore)
  · obtain ⟨hafter, hp⟩ := h'.found name rfl
    exact absurd hp (h.gap name hafter hbefore)

theorem congr (h : Follows p after next) (hpq : ∀ name, q name ↔ p name) : Follows q after next where
  found := fun name hname => (h.found name hname).imp_right (hpq name).mpr
  gap := fun name hafter hbefore hq => h.gap name hafter hbefore ((hpq name).mp hq)

/-- What follows a position follows whatever stands in between. -/
theorem of_between (h : Follows p after next) {name : Name} (hafter : name.IsAfter after)
    (hbefore : name.IsBefore next) : Follows p (some name) next where
  found := by
    rintro other rfl
    exact ⟨hbefore, (h.found other rfl).2⟩
  gap := fun other hlt => h.gap other (hafter.trans hlt)

end Follows

/-! ### The question for the next name -/

theorem IsNext.follows {p : Name → Prop} {after next : Option Name} (h : IsNext p after next) :
    Follows p after next where
  found := fun name hname => (h.found name hname).imp_left Name.isAfter_iff.mpr
  gap := by
    intro name hafter hbefore hp
    obtain ⟨first, rfl, hnot⟩ := h.least name (Name.isAfter_iff.mp hafter) hp
    exact hnot hbefore

/-- **The least key after a bound is what follows it.** -/
theorem follows_leastAfter (after : Option Name) (keys : List Name) :
    Follows (· ∈ keys) after (leastAfter after keys) :=
  (isNext_leastAfter after keys).follows

end ObjectStore
