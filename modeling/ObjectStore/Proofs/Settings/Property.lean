/-
Which properties are accepted.

`Numeral` is the grammar of an integer: at most one sign and then at least one ASCII digit.  A text
denotes an integer if it consists of a numeral with nothing but blanks around it.  This is said
without trimming and without reading, and `integer?_trim_eq_some_iff` says that the two of them
together find exactly the integers of 64 bits.

`Settings.ofProperties_exact` says when properties are accepted as settings, what the settings then
are, and which failure is reported when they are not.
-/
import Mathlib.Data.List.Forall2
import Mathlib.Data.List.TakeWhile
import Mathlib.Data.Nat.Digits.Defs
import ObjectStore.Settings.Property

namespace ObjectStore

/-! ### Blanks around a text -/

namespace Text

/-- The text is its core with nothing but blanks around it. -/
def Padded (core text : List Char) : Prop :=
  ∃ left right, text = left ++ core ++ right ∧ (∀ c ∈ left, isBlank c = true) ∧
    ∀ c ∈ right, isBlank c = true

theorem padded_trim (text : List Char) : Padded (trim text) text := by
  -- `inner` is what is left when the blanks on the left are gone.
  let inner := text.dropWhile isBlank
  refine ⟨text.takeWhile isBlank, (inner.reverse.takeWhile isBlank).reverse, ?_, ?_, ?_⟩
  · have hinner : trim text ++ (inner.reverse.takeWhile isBlank).reverse = inner := by
      show (inner.reverse.dropWhile isBlank).reverse ++ _ = inner
      rw [← List.reverse_append, List.takeWhile_append_dropWhile, List.reverse_reverse]
    rw [List.append_assoc, hinner, List.takeWhile_append_dropWhile]
  · exact fun c hc => List.mem_takeWhile_imp hc
  · exact fun c hc => List.mem_takeWhile_imp (List.mem_reverse.mp hc)

theorem dropWhile_of_head {cs : List Char} (hne : cs ≠ []) (h : isBlank (cs.head hne) = false) :
    cs.dropWhile isBlank = cs := by
  cases cs with
  | nil => rfl
  | cons c rest => exact List.dropWhile_cons_of_neg (by simpa using h)

/-- What stands between blanks, and does not begin or end with one, is what `trim` leaves. -/
theorem trim_of_padded {core text : List Char} (h : Padded core text) (hne : core ≠ [])
    (hfirst : isBlank (core.head hne) = false) (hlast : isBlank (core.getLast hne) = false) :
    trim text = core := by
  obtain ⟨left, right, rfl, hleft, hright⟩ := h
  have hstart : (left ++ core ++ right).dropWhile isBlank = core ++ right := by
    rw [List.append_assoc, List.dropWhile_append_of_pos hleft]
    refine dropWhile_of_head (List.append_ne_nil_of_left_ne_nil hne right) ?_
    rwa [List.head_append_of_ne_nil hne]
  have hend : (core ++ right).reverse.dropWhile isBlank = core.reverse := by
    rw [List.reverse_append,
      List.dropWhile_append_of_pos fun c hc => hright c (List.mem_reverse.mp hc)]
    refine dropWhile_of_head (List.reverse_ne_nil_iff.mpr hne) ?_
    rwa [List.head_reverse]
  unfold trim
  rw [hstart, hend, List.reverse_reverse]

end Text

/-! ### Numerals -/

/-- At least one ASCII digit, and the number that the digits stand for in base ten. -/
structure Digits (ds : List Char) (n : Nat) : Prop where
  ne_nil : ds ≠ []
  ascii : ∀ c ∈ ds, '0' ≤ c ∧ c ≤ '9'
  value : n = Nat.ofDigits 10 (ds.reverse.map fun c => c.toNat - '0'.toNat)

/-- Digits after at most one sign, and the integer that they stand for. -/
inductive Numeral : List Char → Int → Prop where
  | unsigned {ds : List Char} {n : Nat} (h : Digits ds n) : Numeral ds n
  | positive {ds : List Char} {n : Nat} (h : Digits ds n) : Numeral ('+' :: ds) n
  | negative {ds : List Char} {n : Nat} (h : Digits ds n) : Numeral ('-' :: ds) (-n)

/-- The text is the numeral of an integer with nothing but blanks around it. -/
def Denotes (text : String) (v : Int) : Prop :=
  ∃ core, Text.Padded core text.toList ∧ Numeral core v

/-- The integer has at most 64 bits. -/
def FitsInteger (v : Int) : Prop := minInteger ≤ v ∧ v ≤ maxInteger

theorem decimal_eq_ofDigits (ds : List Char) :
    Text.decimal ds = Nat.ofDigits 10 (ds.reverse.map fun c => c.toNat - '0'.toNat) := by
  rw [Nat.ofDigits_eq_foldr, List.foldr_map, List.foldr_reverse]
  unfold Text.decimal
  congr 1
  funext n c
  exact Nat.add_comm _ _

theorem isDigit_iff {c : Char} : c.isDigit = true ↔ '0' ≤ c ∧ c ≤ '9' := by
  simp only [Char.isDigit, Bool.and_eq_true, decide_eq_true_eq]
  exact Iff.rfl

theorem decimal?_eq_some_iff {ds : List Char} {n : Nat} : decimal? ds = some n ↔ Digits ds n := by
  unfold decimal?
  constructor
  · intro h
    split at h
    · exact absurd h (by simp)
    · rename_i hdigits
      simp only [Bool.or_eq_true, List.isEmpty_iff, Bool.not_eq_true', not_or, Bool.not_eq_false,
        List.all_eq_true] at hdigits
      refine ⟨hdigits.1, fun c hc => isDigit_iff.mp (hdigits.2 c hc), ?_⟩
      rw [← decimal_eq_ofDigits, Option.some.inj h]
  · rintro ⟨hne, hascii, rfl⟩
    have hall : ds.all Char.isDigit = true :=
      List.all_eq_true.mpr fun c hc => isDigit_iff.mpr (hascii c hc)
    have hsome : ds.isEmpty = false := List.isEmpty_eq_false_iff.mpr hne
    simp [hsome, hall, decimal_eq_ofDigits]

theorem Digits.head_ne {c : Char} {ds : List Char} {n : Nat} (h : Digits (c :: ds) n) :
    c ≠ '-' ∧ c ≠ '+' := by
  have hc := h.ascii c List.mem_cons_self
  constructor <;>
    · rintro rfl
      exact absurd hc (by decide)

/-- Reading finds exactly the integers whose numerals there are, if they have 64 bits. -/
theorem integer?_eq_some_iff {cs : List Char} {v : Int} :
    integer? cs = some v ↔ Numeral cs v ∧ FitsInteger v := by
  have hfits : (decide (minInteger ≤ v) && decide (v ≤ maxInteger)) = true ↔ FitsInteger v := by
    rw [Bool.and_eq_true, decide_eq_true_eq, decide_eq_true_eq]
    exact Iff.rfl
  unfold integer?
  rw [Option.filter_eq_some_iff, hfits]
  refine and_congr_left fun _ => ?_
  split
  · rename_i ds
    rw [Option.map_eq_some_iff]
    constructor
    · rintro ⟨n, hn, rfl⟩
      exact .negative (decimal?_eq_some_iff.mp hn)
    · intro h
      cases h with
      | unsigned h => exact absurd rfl h.head_ne.1
      | negative h => exact ⟨_, decimal?_eq_some_iff.mpr h, rfl⟩
  · rename_i ds
    rw [Option.map_eq_some_iff]
    constructor
    · rintro ⟨n, hn, rfl⟩
      exact .positive (decimal?_eq_some_iff.mp hn)
    · intro h
      cases h with
      | unsigned h => exact absurd rfl h.head_ne.2
      | positive h => exact ⟨_, decimal?_eq_some_iff.mpr h, rfl⟩
  · rename_i hminus hplus
    rw [Option.map_eq_some_iff]
    constructor
    · rintro ⟨n, hn, rfl⟩
      exact .unsigned (decimal?_eq_some_iff.mp hn)
    · intro h
      cases h with
      | unsigned h => exact ⟨_, decimal?_eq_some_iff.mpr h, rfl⟩
      | positive h => exact absurd rfl (hplus _)
      | negative h => exact absurd rfl (hminus _)

theorem Numeral.not_blank {cs : List Char} {v : Int} (h : Numeral cs v) :
    cs ≠ [] ∧ ∀ c ∈ cs, Text.isBlank c = false := by
  have hdigit : ∀ {ds : List Char} {n : Nat}, Digits ds n → ∀ c ∈ ds, Text.isBlank c = false := by
    intro ds n hds c hc
    obtain ⟨hlow, hhigh⟩ := hds.ascii c hc
    have hlow' : 48 ≤ c.toNat := hlow
    have hhigh' : c.toNat ≤ 57 := hhigh
    simp only [Text.isBlank, Text.blankRanges, List.any_cons, List.any_nil, Bool.or_false,
      Bool.or_eq_false_iff, Bool.and_eq_false_iff, decide_eq_false_iff_not]
    omega
  cases h with
  | unsigned h => exact ⟨h.ne_nil, hdigit h⟩
  | positive h =>
      refine ⟨List.cons_ne_nil _ _, fun c hc => ?_⟩
      rcases List.mem_cons.mp hc with rfl | hc
      · decide
      · exact hdigit h c hc
  | negative h =>
      refine ⟨List.cons_ne_nil _ _, fun c hc => ?_⟩
      rcases List.mem_cons.mp hc with rfl | hc
      · decide
      · exact hdigit h c hc

/-- **Trimming and reading find exactly what a text denotes**, if it has 64 bits. -/
theorem integer?_trim_eq_some_iff {text : String} {v : Int} :
    integer? (Text.trim text.toList) = some v ↔ Denotes text v ∧ FitsInteger v := by
  rw [integer?_eq_some_iff]
  refine and_congr_left fun _ => ⟨fun h => ⟨_, Text.padded_trim _, h⟩, ?_⟩
  rintro ⟨core, hpadded, hnumeral⟩
  obtain ⟨hne, hblank⟩ := hnumeral.not_blank
  rwa [Text.trim_of_padded hpadded hne (hblank _ (List.head_mem hne))
    (hblank _ (List.getLast_mem hne))]

/-- Blanks, a sign and zeros in front make no difference. -/
example : integer? (Text.trim "\u3000+007\t".toList) = some 7 := by decide

/-! ### One property -/

/-- An integer that fits is kept as it is. -/
theorem narrow_eq {bits : Nat} {v : Int} (hlow : 0 ≤ v) (hhigh : v < 2 ^ bits) :
    (narrow bits v : Int) = v := by
  unfold narrow
  rw [BitVec.toNat_ofInt, Int.emod_eq_of_lt hlow (by exact_mod_cast hhigh),
    Int.toNat_of_nonneg hlow]

namespace Property

/-- The properties that settings are read from, the first one first. -/
def inOrder : List Property :=
  [ioTaskMaxRetries, ioTaskWaitTime, txnTimeout, txnMaxRetries, lockNumShards]

/-- The integer that a property has: its default if it is absent, otherwise one of 64 bits in its
range, which its text denotes. -/
inductive Holds (p : Property) (props : String → Option String) : Int → Prop where
  | absent (h : props p.name = none) : Holds p props p.absent
  | present {text : String} {v : Int} (h : props p.name = some text) (hdenotes : Denotes text v)
    (hfits : FitsInteger v) (hrange : p.min ≤ v ∧ v ≤ p.max) : Holds p props v

/-- What is wrong with a property that is present: its text denotes no integer of 64 bits, or one
that is not in its range. -/
inductive Offends (p : Property) (props : String → Option String) : PropertyError → Prop where
  | unparsable {text : String} (h : props p.name = some text)
    (hnone : ∀ v, Denotes text v → ¬ FitsInteger v) : Offends p props (.unparsable p.name text)
  | outOfRange {text : String} {v : Int} (h : props p.name = some text) (hdenotes : Denotes text v)
    (hfits : FitsInteger v) (hout : v < p.min ∨ p.max < v) :
    Offends p props (.outOfRange p.name v p.min p.max)

variable {p : Property} {props : String → Option String}

theorem read_eq_ok_iff {v : Int} : p.read props = .ok v ↔ p.Holds props v := by
  unfold read
  constructor
  · intro h
    split at h
    · rename_i habsent
      cases h
      exact .absent habsent
    · rename_i text hpresent
      split at h
      · exact absurd h (by simp)
      · rename_i w hread
        split at h
        · exact absurd h (by simp)
        · rename_i hin
          cases h
          obtain ⟨hdenotes, hfits⟩ := integer?_trim_eq_some_iff.mp hread
          exact .present hpresent hdenotes hfits (by omega)
  · intro h
    cases h with
    | absent habsent => simp only [habsent]
    | present hpresent hdenotes hfits hrange =>
        have hread := integer?_trim_eq_some_iff.mpr ⟨hdenotes, hfits⟩
        simp only [hpresent, hread]
        exact if_neg (by omega)

theorem read_eq_error_iff {e : PropertyError} : p.read props = .error e ↔ p.Offends props e := by
  unfold read
  constructor
  · intro h
    split at h
    · exact absurd h (by simp)
    · rename_i text hpresent
      split at h
      · rename_i hnone
        cases h
        refine .unparsable hpresent fun v hdenotes hfits => ?_
        rw [integer?_trim_eq_some_iff.mpr ⟨hdenotes, hfits⟩] at hnone
        exact absurd hnone (by simp)
      · rename_i v hread
        split at h
        · rename_i hout
          cases h
          obtain ⟨hdenotes, hfits⟩ := integer?_trim_eq_some_iff.mp hread
          exact .outOfRange hpresent hdenotes hfits hout
        · exact absurd h (by simp)
  · intro h
    cases h with
    | @unparsable text hpresent hnone =>
        have hread : integer? (Text.trim text.toList) = none := by
          refine Option.eq_none_iff_forall_not_mem.mpr fun v hv => ?_
          obtain ⟨hdenotes, hfits⟩ := integer?_trim_eq_some_iff.mp hv
          exact hnone v hdenotes hfits
        simp only [hpresent, hread]
    | outOfRange hpresent hdenotes hfits hout =>
        have hread := integer?_trim_eq_some_iff.mpr ⟨hdenotes, hfits⟩
        simp only [hpresent, hread]
        exact if_pos hout

theorem Offends.not_holds {e : PropertyError} (h : p.Offends props e) (v : Int) :
    ¬ p.Holds props v := by
  rw [← read_eq_ok_iff, read_eq_error_iff.mpr h]
  simp

/-- Every default passes the check of its own property. -/
theorem absent_mem_range (hp : p ∈ inOrder) : p.min ≤ p.absent ∧ p.absent ≤ p.max := by
  revert p
  decide

/-- No value in range loses anything when it is kept. -/
theorem range_fits (hp : p ∈ inOrder) : 0 ≤ p.min ∧ p.max < 2 ^ p.bits := by
  revert p
  decide

theorem Holds.narrow_eq {v : Int} (h : p.Holds props v) (hp : p ∈ inOrder) :
    (narrow p.bits v : Int) = v := by
  have hrange : p.min ≤ v ∧ v ≤ p.max := by
    cases h with
    | absent => exact absent_mem_range hp
    | present _ _ _ hrange => exact hrange
  obtain ⟨hmin, hmax⟩ := range_fits hp
  exact ObjectStore.narrow_eq (Int.le_trans hmin hrange.1) (Int.lt_of_le_of_lt hrange.2 hmax)

theorem setting_eq_ok_iff {n : Nat} (hp : p ∈ inOrder) :
    p.setting props = .ok n ↔ p.Holds props n := by
  unfold setting
  constructor
  · intro h
    cases hread : p.read props with
    | error e =>
        rw [hread] at h
        exact absurd h (by simp [Except.map])
    | ok v =>
        rw [hread] at h
        have hholds := read_eq_ok_iff.mp hread
        cases h
        rwa [hholds.narrow_eq hp]
  · intro h
    have hnarrow : narrow p.bits n = n := Int.ofNat_inj.mp (h.narrow_eq hp)
    rw [read_eq_ok_iff.mpr h]
    simp [Except.map, hnarrow]

theorem exists_setting_iff : (∃ n, p.setting props = .ok n) ↔ ∃ v, p.Holds props v := by
  simp only [← read_eq_ok_iff]
  unfold setting
  cases p.read props <;> simp [Except.map]

theorem setting_eq_error_iff {e : PropertyError} :
    p.setting props = .error e ↔ p.Offends props e := by
  rw [← read_eq_error_iff]
  unfold setting
  cases p.read props <;> simp [Except.map]

end Property

/-! ### All properties -/

section InOrder

variable {α β ε : Type} {f : α → Except ε β}

theorem exists_of_forall₂ {R : α → β → Prop} {as : List α} {bs : List β}
    (h : List.Forall₂ R as bs) : ∀ a ∈ as, ∃ b, R a b := by
  induction h with
  | nil => exact fun _ hmem => absurd hmem List.not_mem_nil
  | cons hb _ ih => exact List.forall_mem_cons.mpr ⟨⟨_, hb⟩, ih⟩

theorem mapM_eq_ok_iff {as : List α} {bs : List β} :
    as.mapM f = .ok bs ↔ List.Forall₂ (fun a b => f a = .ok b) as bs := by
  induction as generalizing bs with
  | nil =>
      rw [List.mapM_nil, List.forall₂_nil_left_iff]
      exact ⟨fun h => (Except.ok.inj h).symm, fun h => congrArg Except.ok h.symm⟩
  | cons a rest ih =>
      rw [List.mapM_cons]
      cases ha : f a with
      | error e =>
          refine ⟨fun h => absurd h (by simp [bind, Except.bind]), fun h => ?_⟩
          cases h with
          | cons hb _ => exact absurd (ha.symm.trans hb) (by simp)
      | ok b =>
          cases hrest : rest.mapM f with
          | error e =>
              refine ⟨fun h => absurd h (by simp [bind, Except.bind]), fun h => ?_⟩
              cases h with
              | cons _ hbs => exact absurd (hrest.symm.trans (ih.mpr hbs)) (by simp)
          | ok bs' =>
              constructor
              · intro h
                cases h
                exact .cons ha (ih.mp hrest)
              · intro h
                cases h with
                | cons hb hbs =>
                    cases ha.symm.trans hb
                    cases hrest.symm.trans (ih.mpr hbs)
                    rfl

/-- Reading a list fails as the first of its members that fails. -/
theorem mapM_eq_error_iff {as : List α} {e : ε} :
    as.mapM f = .error e ↔ ∃ before a after, as = before ++ a :: after ∧
      (∀ a' ∈ before, ∃ b, f a' = .ok b) ∧ f a = .error e := by
  induction as with
  | nil => simp [pure, Except.pure]
  | cons a rest ih =>
      rw [List.mapM_cons]
      cases ha : f a with
      | error e' =>
          constructor
          · intro h
            cases h
            exact ⟨[], a, rest, rfl, fun _ hmem => absurd hmem List.not_mem_nil, ha⟩
          · rintro ⟨before, a', after, hsplit, hbefore, herror⟩
            cases before with
            | nil =>
                obtain ⟨rfl, -⟩ := List.cons.inj hsplit
                cases ha.symm.trans herror
                rfl
            | cons first before =>
                obtain ⟨rfl, -⟩ := List.cons.inj hsplit
                obtain ⟨b, hb⟩ := hbefore a List.mem_cons_self
                exact absurd (ha.symm.trans hb) (by simp)
      | ok b =>
          have hrest : (do
              let b ← (Except.ok b : Except ε β)
              let bs ← rest.mapM f
              pure (b :: bs)) = Except.error e ↔ rest.mapM f = .error e := by
            cases rest.mapM f <;> simp [bind, Except.bind, pure, Except.pure]
          rw [hrest, ih]
          constructor
          · rintro ⟨before, a', after, rfl, hbefore, herror⟩
            exact ⟨a :: before, a', after, rfl,
              List.forall_mem_cons.mpr ⟨⟨b, ha⟩, hbefore⟩, herror⟩
          · rintro ⟨before, a', after, hsplit, hbefore, herror⟩
            cases before with
            | nil =>
                obtain ⟨rfl, -⟩ := List.cons.inj hsplit
                exact absurd (ha.symm.trans herror) (by simp)
            | cons first before =>
                obtain ⟨-, rfl⟩ := List.cons.inj hsplit
                exact ⟨before, a', after, rfl, (List.forall_mem_cons.mp hbefore).2, herror⟩

end InOrder

namespace Settings

/-- The settings that are read from properties, in the order of `Property.inOrder`. -/
def values (s : Settings) : List Nat :=
  [s.service.ioTaskMaxRetries, s.service.ioTaskWaitTime, s.transaction.timeout,
    s.transaction.maxTaskRetries, s.lock.numShards]

theorem values_inj {s s' : Settings} (h : s.values = s'.values) : s = s' := by
  obtain ⟨⟨n₁, n₂⟩, ⟨n₃, n₄⟩, ⟨n₅⟩⟩ := s
  obtain ⟨⟨n₁', n₂'⟩, ⟨n₃', n₄'⟩, ⟨n₅'⟩⟩ := s'
  simp only [values, List.cons.injEq, and_true] at h
  obtain ⟨rfl, rfl, rfl, rfl, rfl⟩ := h
  rfl

theorem map_values_ofProperties (props : String → Option String) :
    (ofProperties props).map values = Property.inOrder.mapM (·.setting props) := by
  simp only [ofProperties, Property.inOrder, List.mapM_cons, List.mapM_nil]
  cases Property.ioTaskMaxRetries.setting props with
  | error e => rfl
  | ok n₁ =>
      cases Property.ioTaskWaitTime.setting props with
      | error e => rfl
      | ok n₂ =>
          cases Property.txnTimeout.setting props with
          | error e => rfl
          | ok n₃ =>
              cases Property.txnMaxRetries.setting props with
              | error e => rfl
              | ok n₄ => cases Property.lockNumShards.setting props <;> rfl

/-- The settings are the values that the properties have. -/
theorem ofProperties_eq_ok_iff {props : String → Option String} {s : Settings} :
    ofProperties props = .ok s ↔
      List.Forall₂ (fun (p : Property) (n : Nat) => p.Holds props n) Property.inOrder s.values := by
  have hvalues : ofProperties props = .ok s ↔
      Property.inOrder.mapM (·.setting props) = .ok s.values := by
    rw [← map_values_ofProperties]
    cases ofProperties props with
    | error e => simp [Except.map]
    | ok s' => simpa [Except.map] using ⟨congrArg values, values_inj⟩
  rw [hvalues, mapM_eq_ok_iff]
  -- Only the properties that are read are known to be kept in enough bits.
  constructor
  · intro h
    refine ((List.forall₂_and_left _ _).mpr ⟨fun _ hp => hp, h⟩).imp fun p n hn => ?_
    exact (Property.setting_eq_ok_iff hn.1).mp hn.2
  · intro h
    refine ((List.forall₂_and_left _ _).mpr ⟨fun _ hp => hp, h⟩).imp fun p n hn => ?_
    exact (Property.setting_eq_ok_iff hn.1).mpr hn.2

/-- The failure is that of the first property that offends. -/
theorem ofProperties_eq_error_iff {props : String → Option String} {e : PropertyError} :
    ofProperties props = .error e ↔ ∃ before p after,
      Property.inOrder = before ++ p :: after ∧ (∀ q ∈ before, ∃ v, q.Holds props v) ∧
        p.Offends props e := by
  have hfails : ofProperties props = .error e ↔
      Property.inOrder.mapM (·.setting props) = .error e := by
    rw [← map_values_ofProperties]
    cases ofProperties props <;> simp [Except.map]
  rw [hfails, mapM_eq_error_iff]
  simp only [Property.setting_eq_error_iff, Property.exists_setting_iff]

/--
**Properties are accepted exactly if they keep to the grammar.**  They are settings exactly if each
one is absent or denotes, between blanks, an integer of 64 bits in its range.  The settings are then
these integers, unchanged, and the defaults of what is absent.  Otherwise the failure is that of the
first property that offends: it cannot be parsed, and the failure shows its text as it is, or its
value is out of range, and the failure shows the value.
-/
theorem ofProperties_exact (props : String → Option String) :
    ((∃ s, ofProperties props = .ok s) ↔ ∀ p ∈ Property.inOrder, ∃ v, p.Holds props v) ∧
    (∀ s, ofProperties props = .ok s ↔
      List.Forall₂ (fun (p : Property) (n : Nat) => p.Holds props n) Property.inOrder s.values) ∧
    ∀ e, ofProperties props = .error e ↔ ∃ before p after,
      Property.inOrder = before ++ p :: after ∧ (∀ q ∈ before, ∃ v, q.Holds props v) ∧
        p.Offends props e := by
  refine ⟨⟨?_, ?_⟩, fun s => ofProperties_eq_ok_iff, fun e => ofProperties_eq_error_iff⟩
  · rintro ⟨s, hs⟩ p hp
    obtain ⟨n, hn⟩ := exists_of_forall₂ (ofProperties_eq_ok_iff.mp hs) p hp
    exact ⟨n, hn⟩
  · intro h
    cases hresult : ofProperties props with
    | ok s => exact ⟨s, rfl⟩
    | error e =>
        obtain ⟨before, p, after, hsplit, -, hoffends⟩ := ofProperties_eq_error_iff.mp hresult
        obtain ⟨v, hv⟩ := h p (hsplit ▸ List.mem_append_right _ List.mem_cons_self)
        exact absurd hv (hoffends.not_holds v)

end Settings

end ObjectStore
