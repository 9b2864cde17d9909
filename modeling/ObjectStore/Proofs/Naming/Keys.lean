/-
The order of the keys.

The key of a name is the name, with another `z` in front if it begins with one.  Texts are compared
by their bytes, and `z` is one byte that no other character begins with.  So the bytes of a key are
those of the name, with the byte of `z` once more in front if they begin with it.

That keeps the order.  Of two names that both begin with `z` both get one more.  Where only one does,
the first bytes decide, and they are what they were.
-/
import ObjectStore.Proofs.Naming.Order

namespace ObjectStore

/-! ### Lists of bytes in order -/

section Bytes

variable {b : UInt8} {l : List UInt8}

theorem compare_cons_self (b : UInt8) (l l' : List UInt8) :
    compare (b :: l) (b :: l') = compare l l' := by
  rw [List.compare_cons_cons, Std.ReflOrd.compare_self, Ordering.eq_then]

/-- Against a list that does not begin with the same byte nothing but the first byte matters. -/
theorem compare_cons_left (hl : ∀ rest, l ≠ b :: rest) (tail tail' : List UInt8) :
    compare (b :: tail) l = compare (b :: tail') l := by
  cases l with
  | nil => rfl
  | cons c rest =>
      rw [List.compare_cons_cons, List.compare_cons_cons]
      cases hfirst : compare b c with
      | eq => exact absurd (congrArg (· :: rest) (Std.LawfulEqOrd.eq_of_compare hfirst).symm) (hl rest)
      | lt => rfl
      | gt => rfl

theorem compare_cons_right (hl : ∀ rest, l ≠ b :: rest) (tail tail' : List UInt8) :
    compare l (b :: tail) = compare l (b :: tail') := by
  rw [Std.OrientedOrd.eq_swap, compare_cons_left hl tail tail', ← Std.OrientedOrd.eq_swap]

/-- Comparing bytes one by one is what the order of texts is about. -/
theorem compare_eq_lt_iff (l l' : List UInt8) : compare l l' = .lt ↔ l < l' := by
  induction l generalizing l' with
  | nil => cases l' <;> simp
  | cons c l ih =>
      cases l' with
      | nil => simp
      | cons c' l' =>
          rw [List.compare_cons_cons, Ordering.then_eq_lt, Std.compare_eq_lt,
            Std.LawfulEqOrd.compare_eq_iff_eq, ih, List.cons_lt_cons_iff]

end Bytes

/-! ### The byte of z -/

namespace Text

theorem utf8_cons_z (rest : List Char) :
    utf8 (String.ofList ('z' :: rest)) = 122 :: utf8 (String.ofList rest) := by
  unfold utf8
  rw [String.toList_ofList, String.toList_ofList, List.flatMap_cons]
  rfl

/-- No other character begins with that byte: it is its only byte, or its first one is 192 at least. -/
theorem eq_z_of_utf8EncodeChar {c : Char} {l : List UInt8}
    (h : String.utf8EncodeChar c = 122 :: l) : c = 'z' := by
  have hfirst : ∀ {n : Nat} {l' : List UInt8}, UInt8.ofNat n :: l' = 122 :: l → n % 256 = 122 :=
    fun heq => congrArg UInt8.toNat (List.cons.inj heq).1
  simp only [String.utf8EncodeChar] at h
  split at h
  · have hval : c.val.toNat = 122 := by
      have hbyte := hfirst h
      omega
    exact Char.ext (UInt32.toNat_inj.mp hval)
  · exfalso
    split at h
    · have hbyte := hfirst h
      omega
    · split at h
      · have hbyte := hfirst h
        omega
      · have hbyte := hfirst h
        omega

theorem utf8_ne_cons {s : String} (hs : ∀ rest, s.toList ≠ 'z' :: rest) (rest : List UInt8) :
    utf8 s ≠ 122 :: rest := by
  unfold utf8
  cases hchars : s.toList with
  | nil => simp
  | cons c tail =>
      intro hbytes
      cases hc : String.utf8EncodeChar c with
      | nil => exact absurd hc (String.utf8EncodeChar_ne_nil)
      | cons b l =>
          rw [List.flatMap_cons, hc] at hbytes
          obtain rfl : b = 122 := (List.cons.inj hbytes).1
          rw [eq_z_of_utf8EncodeChar hc] at hchars
          exact hs tail hchars

end Text

namespace NameKey

/-- The bytes of a key are those of its name, or those and the byte of `z` in front of them. -/
theorem utf8_ofName_cases (name : Name) :
    (∃ tail, Text.utf8 name.text = 122 :: tail ∧
        Text.utf8 (ofName name).text = 122 :: 122 :: tail) ∨
      (∀ tail, Text.utf8 name.text ≠ 122 :: tail) ∧
        Text.utf8 (ofName name).text = Text.utf8 name.text := by
  rcases ofName_cases name with ⟨rest, hname, hkey⟩ | ⟨hno, hkey⟩
  · refine Or.inl ⟨Text.utf8 (String.ofList rest), ?_, ?_⟩
    · rw [← Text.utf8_cons_z, ← hname, String.ofList_toList]
    · rw [← Text.utf8_cons_z, ← Text.utf8_cons_z, ← hkey, String.ofList_toList]
  · refine Or.inr ⟨Text.utf8_ne_cons hno, ?_⟩
    rw [String.toList_inj.mp hkey]

/-- **Keys are ordered as their names are.** -/
theorem compare_ofName (a b : Name) :
    compare (Text.utf8 (ofName a).text) (Text.utf8 (ofName b).text) =
      compare (Text.utf8 a.text) (Text.utf8 b.text) := by
  rcases utf8_ofName_cases a with ⟨tail, ha, hkey⟩ | ⟨hno, hkey⟩ <;>
    rcases utf8_ofName_cases b with ⟨tail', hb, hkey'⟩ | ⟨hno', hkey'⟩
  · rw [hkey, hkey', ha, hb, compare_cons_self]
  · rw [hkey, hkey', ha]
    exact compare_cons_left hno' _ _
  · rw [hkey, hkey', hb]
    exact compare_cons_right hno _ _
  · rw [hkey, hkey']

/--
**The keys are faithful to the positions.**  The keys of two names compare as the names do, whatever
the names are, so the order of the names is that of their keys, and different names have different
keys.  No name has the key of the end.  So no two positions share a key.
-/
theorem ofPosition_faithful (a b : Name) :
    compare (Text.utf8 (ofPosition (some a)).text) (Text.utf8 (ofPosition (some b)).text) =
        compare (Text.utf8 a.text) (Text.utf8 b.text) ∧
      (Text.utf8 (ofPosition (some a)).text < Text.utf8 (ofPosition (some b)).text ↔ a < b) ∧
      (ofPosition (some a) = ofPosition (some b) ↔ a = b) ∧
      ofPosition (some a) ≠ ofPosition none ∧
      ∀ p q, ofPosition p = ofPosition q ↔ p = q := by
  have hcompare : compare (Text.utf8 (ofName a).text) (Text.utf8 (ofName b).text) =
      compare (Text.utf8 a.text) (Text.utf8 b.text) := compare_ofName a b
  have hlt : Text.utf8 (ofName a).text < Text.utf8 (ofName b).text ↔ a < b := by
    rw [← compare_eq_lt_iff, hcompare, compare_eq_lt_iff]
    rfl
  refine ⟨hcompare, hlt, ⟨ofName_injective, congrArg ofName⟩, ofName_ne_endOfNames a, ?_⟩
  exact fun p q => ⟨ofPosition_injective, congrArg ofPosition⟩

/-- What begins with `z` gets one more, also a name that looks like the key of the end. -/
example :
    (["y", "z", "zz", "z.end", "é"].map fun text => (ofPosition (some ⟨text⟩)).text) =
      ["y", "zz", "zzz", "zz.end", "é"] ∧ (ofPosition none).text = "z.end" := by
  decide

end NameKey

end ObjectStore
