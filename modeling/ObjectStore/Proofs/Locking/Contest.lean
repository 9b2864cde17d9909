/-
What one attempt does to the entries of its key.

An attempt gives its own locker an entry, or raises the one it has.  To the entries of others it
does one thing only: a holder that gives up loses its entry.  `Contest.attempt_spec` says this in
full, for entries among which no locker occurs twice.

What giving up means is left to the lockers.  `Lockers.Final` says of a property of lockers that
giving up brings it about and being asked never undoes it.  For transactions the property is to be
aborted.
-/
import ObjectStore.Proofs.Locking.Entry

namespace ObjectStore

open LockEntry (Distinct Attempted)

/-- Whoever gives up has the property `gone`, and nobody loses it by being asked to give up. -/
structure Lockers.Final {σ L : Type} [Lockers σ L] (gone : σ → L → Prop) : Prop where
  wound : ∀ s l reason, (Lockers.wound s l reason).1 = true → gone (Lockers.wound s l reason).2 l
  stays : ∀ s l reason l', gone s l' → gone (Lockers.wound s l reason).2 l'

/-- Where nothing depends on who is gone, anybody may count as gone. -/
theorem Lockers.Final.any {σ L : Type} [Lockers σ L] : Lockers.Final fun (_ : σ) (_ : L) => True where
  wound := fun _ _ _ _ => trivial
  stays := fun _ _ _ _ _ => trivial

namespace Contest

variable {σ L : Type}

/-! ### What is left when holders give up -/

/-- `c'` is left of `c` when holders other than the locker have given up. -/
structure Thinned (gone : σ → L → Prop) (locker : L) (c c' : Contest σ L) : Prop where
  sublist : c'.entries.Sublist c.entries
  kept : ∀ e ∈ c.entries,
    e ∈ c'.entries ∨ e.owner ≠ locker ∧ e.granted = true ∧ gone c'.lockers e.owner
  stays : ∀ l, gone c.lockers l → gone c'.lockers l

namespace Thinned

variable {gone : σ → L → Prop} {locker : L} {c c' c'' : Contest σ L}

theorem trans (h : Thinned gone locker c c') (h' : Thinned gone locker c' c'') :
    Thinned gone locker c c'' where
  sublist := h'.sublist.trans h.sublist
  kept := by
    intro e he
    rcases h.kept e he with hin | ⟨hne, hgranted, hgone⟩
    · exact h'.kept e hin
    · exact Or.inr ⟨hne, hgranted, h'.stays _ hgone⟩
  stays := fun l hl => h'.stays l (h.stays l hl)

/-- The locker's own entry is never at stake. -/
theorem mem_own (h : Thinned gone locker c c') {e : LockEntry L} (he : e ∈ c.entries)
    (howner : e.owner = locker) : e ∈ c'.entries :=
  (h.kept e he).resolve_right fun hlost => hlost.1 howner

/-- Nobody loses an entry without being gone. -/
theorem mem_or_gone (h : Thinned gone locker c c') {e : LockEntry L} (he : e ∈ c.entries) :
    e ∈ c'.entries ∨ e.granted = true ∧ gone c'.lockers e.owner :=
  (h.kept e he).imp_right And.right

end Thinned

variable [DecidableEq L]

/-! ### The locker's own entry -/

theorem own_eq_some_iff {c : Contest σ L} (hd : Distinct c.entries) {locker : L}
    {e : LockEntry L} : c.own locker = some e ↔ e ∈ c.entries ∧ e.owner = locker :=
  hd.find?_eq_some_iff

theorem own_eq_none_iff {c : Contest σ L} {locker : L} :
    c.own locker = none ↔ ∀ e ∈ c.entries, e.owner ≠ locker := by
  simp [own, List.find?_eq_none]

theorem holds_iff {c : Contest σ L} (hd : Distinct c.entries) {locker : L} {mode : LockMode} :
    c.holds locker mode = true ↔ LockEntry.Holds locker mode c.entries := by
  unfold holds
  cases hown : c.own locker with
  | none =>
      have hnone := own_eq_none_iff.mp hown
      constructor
      · intro h
        exact absurd h (by simp)
      · rintro ⟨e, he, howner, -⟩
        exact absurd howner (hnone e he)
  | some e =>
      obtain ⟨he, howner⟩ := (own_eq_some_iff hd).mp hown
      simp only [Bool.and_eq_true, decide_eq_true_eq]
      constructor
      · intro h
        exact ⟨e, he, howner, h⟩
      · rintro ⟨x, hx, hxowner, h⟩
        rwa [hd.eq_of_owner he hx (howner.trans hxowner.symm)]

theorem clear_of_holdout_eq_none {c : Contest σ L} {locker : L} {mode : LockMode}
    (h : c.holdout locker mode = none) {e : LockEntry L} (he : e ∈ c.entries)
    (hgranted : e.granted = true) (hne : e.owner ≠ locker) :
    mode.conflictsWith e.mode = false := by
  have hnil := LockEntry.eldest_eq_none_iff.mp h
  by_contra hconflict
  have hmem : e ∈ c.entries.filter fun e => e.rivals locker mode && e.granted := by
    refine List.mem_filter.mpr ⟨he, ?_⟩
    simp [LockEntry.rivals, hne, hgranted, Bool.of_not_eq_false hconflict]
  rw [hnil] at hmem
  exact List.not_mem_nil hmem

theorem attempted_held {gone : σ → L → Prop} {locker : L} {mode : LockMode} {wait : Bool}
    {c c' : Contest σ L} (hd : Distinct c.entries) (h : Thinned gone locker c c')
    (hholds : c'.holds locker mode = true) :
    Attempted (gone c'.lockers) locker mode wait c.entries .granted c'.entries := by
  have hd' := hd.sublist h.sublist
  have hheld := (holds_iff hd').mp hholds
  refine ⟨⟨hd', fun e he _ => h.sublist.subset he, fun e he _ => h.mem_or_gone he,
    fun own hown _ _ => .held (h.sublist.subset hown)⟩, fun _ => hheld, fun hv => absurd rfl hv, ?_⟩
  intro e he howner hqueued
  obtain ⟨x, hx, hxowner, hgranted, -⟩ := hheld
  rw [hd'.eq_of_owner hx he (hxowner.trans howner.symm), hqueued] at hgranted
  exact absurd hgranted (by simp)

/-! ### Asking holders to give up -/

theorem entries_remove (c : Contest σ L) (locker : L) :
    (c.remove locker).entries = c.entries.eraseP (·.owner = locker) := by
  unfold remove
  cases hown : c.own locker with
  | none => exact (List.eraseP_of_forall_not (List.find?_eq_none.mp hown)).symm
  | some e => rfl

theorem lockers_remove (c : Contest σ L) (locker : L) : (c.remove locker).lockers = c.lockers := by
  unfold remove
  cases c.own locker <;> rfl

variable [Lockers σ L] {gone : σ → L → Prop} {parked : FinMap L Signal} {reason : WoundReason L}

theorem lockers_oust (c : Contest σ L) (holder : L) :
    (c.oust parked reason holder).lockers = (Lockers.wound c.lockers holder reason).2 := by
  unfold oust
  rcases Lockers.wound c.lockers holder reason with ⟨_ | _, lockers⟩
  · rfl
  · exact lockers_remove _ holder

/-- Who refuses keeps its entry, and who gives up loses it. -/
theorem entries_oust (c : Contest σ L) (holder : L) :
    (c.oust parked reason holder).entries =
      if (Lockers.wound c.lockers holder reason).1 = true then
        c.entries.eraseP (·.owner = holder)
      else c.entries := by
  unfold oust
  rcases Lockers.wound c.lockers holder reason with ⟨_ | _, lockers⟩
  · rfl
  · exact entries_remove _ holder

theorem entries_oust_sublist (c : Contest σ L) (holder : L) :
    (c.oust parked reason holder).entries.Sublist c.entries := by
  rw [entries_oust]
  split
  · exact List.eraseP_sublist
  · exact List.Sublist.refl _

theorem entries_foldl_oust_sublist (holders : List L) :
    ∀ c : Contest σ L, (holders.foldl (oust parked reason) c).entries.Sublist c.entries := by
  induction holders with
  | nil => intro c; exact List.Sublist.refl _
  | cons holder rest ih => intro c; exact (ih _).trans (entries_oust_sublist c holder)

theorem lockers_foldl_oust {R : σ → σ → Prop} (hrefl : ∀ s, R s s)
    (htrans : ∀ s₁ s₂ s₃, R s₁ s₂ → R s₂ s₃ → R s₁ s₃) (holders : List L)
    (hwound : ∀ s, ∀ l ∈ holders, ∀ reason, R s (Lockers.wound s l reason).2) :
    ∀ c : Contest σ L, R c.lockers (holders.foldl (oust parked reason) c).lockers := by
  induction holders with
  | nil => intro c; exact hrefl _
  | cons holder rest ih =>
      intro c
      refine htrans _ _ _ ?_ (ih (fun s l hl => hwound s l (List.mem_cons_of_mem _ hl)) _)
      rw [lockers_oust]
      exact hwound c.lockers holder List.mem_cons_self reason

/-- An entry that has disappeared belonged to one of those who were asked, who is gone. -/
theorem mem_foldl_oust (hfinal : Lockers.Final gone) {e : LockEntry L} (holders : List L) :
    ∀ c : Contest σ L, Distinct c.entries → e ∈ c.entries →
      e ∈ (holders.foldl (oust parked reason) c).entries ∨
        e.owner ∈ holders ∧ gone (holders.foldl (oust parked reason) c).lockers e.owner := by
  induction holders with
  | nil => intro c _ he; exact Or.inl he
  | cons holder rest ih =>
      intro c hd he
      by_cases hin : e ∈ (c.oust parked reason holder).entries
      · rcases ih _ (hd.sublist (entries_oust_sublist c holder)) hin with hkept | ⟨hmem, hgone⟩
        · exact Or.inl hkept
        · exact Or.inr ⟨List.mem_cons_of_mem _ hmem, hgone⟩
      · rw [entries_oust] at hin
        split at hin
        · rename_i hgave
          have howner : e.owner = holder := by
            by_contra hne
            exact hin (hd.mem_eraseP.mpr ⟨he, hne⟩)
          have hgone : gone (c.oust parked reason holder).lockers e.owner := by
            rw [lockers_oust, howner]
            exact hfinal.wound _ _ _ hgave
          refine Or.inr ⟨by simp [howner], ?_⟩
          exact lockers_foldl_oust (R := fun s s' => gone s e.owner → gone s' e.owner)
            (fun _ h => h) (fun _ _ _ h₁ h₂ h => h₂ (h₁ h)) rest
            (fun s l _ reason => hfinal.stays s l reason e.owner) _ hgone
        · exact absurd he hin

/-! ### The stages of an attempt -/

variable {now : Nat} {locker : L} {mode : LockMode} {wait : Bool}

/-- Asking holders among which the locker is not thins the entries out. -/
theorem foldl_oust_thinned (hfinal : Lockers.Final gone) {c : Contest σ L}
    (hd : Distinct c.entries) {p : LockEntry L → Bool}
    (hp : ∀ e, p e = true → e.owner ≠ locker ∧ e.granted = true) :
    Thinned gone locker c (((c.entries.filter p).map (·.owner)).foldl (oust parked reason) c) where
  sublist := entries_foldl_oust_sublist _ c
  kept := by
    intro e he
    rcases mem_foldl_oust hfinal _ c hd he with hin | ⟨hasked, hgone⟩
    · exact Or.inl hin
    · obtain ⟨x, hx, hxe⟩ := List.mem_map.mp hasked
      obtain ⟨hmem, hcond⟩ := List.mem_filter.mp hx
      obtain rfl := hd.eq_of_owner hmem he hxe
      obtain ⟨hne, hgranted⟩ := hp x hcond
      exact Or.inr ⟨hne, hgranted, hgone⟩
  stays := fun l => lockers_foldl_oust (R := fun s s' => gone s l → gone s' l)
    (fun _ h => h) (fun _ _ _ h₁ h₂ h => h₂ (h₁ h)) _
    (fun s l' _ reason => hfinal.stays s l' reason l) c

theorem evictExpired_thinned (hfinal : Lockers.Final gone) {c : Contest σ L}
    (hd : Distinct c.entries) : Thinned gone locker c (c.evictExpired now parked locker) := by
  refine foldl_oust_thinned hfinal hd fun e he => ?_
  simp only [Bool.and_eq_true, decide_eq_true_eq] at he
  exact ⟨he.1.2, he.1.1⟩

theorem woundRivals_thinned (hfinal : Lockers.Final gone) {c : Contest σ L}
    (hd : Distinct c.entries) : Thinned gone locker c (c.woundRivals parked locker mode) := by
  refine foldl_oust_thinned hfinal hd fun e he => ?_
  simp only [LockEntry.rivals, Bool.and_eq_true, decide_eq_true_eq] at he
  exact ⟨he.2.1, he.1⟩

/-! ### The ends of an attempt -/

/-- An attempt that is blocked may queue its locker. -/
theorem attempted_enqueue {c c' : Contest σ L} {verdict : Verdict L} (hd : Distinct c.entries)
    (h : Thinned gone locker c c') (hv : verdict ≠ .granted) :
    Attempted (gone c'.lockers) locker mode wait c.entries verdict
      (c'.enqueue wait locker mode).entries := by
  have hd' := hd.sublist h.sublist
  unfold enqueue
  split
  · rename_i hcond
    simp only [Bool.and_eq_true, Option.isNone_iff_eq_none] at hcond
    have hnone := own_eq_none_iff.mp hcond.2
    have hold : ∀ e ∈ c'.entries ++ [LockEntry.ofRequest c'.lockers locker mode false],
        e ∈ c.entries ∨ e.owner = locker ∧ e.granted = false ∧ e.mode = mode := by
      intro e he
      rcases List.mem_append.mp he with hin | hlast
      · exact Or.inl (h.sublist.subset hin)
      · rw [List.mem_singleton.mp hlast]
        exact Or.inr ⟨rfl, rfl, rfl⟩
    refine ⟨⟨hd'.append hnone, ?_, ?_, ?_⟩, fun hg => absurd hg hv, ?_, ?_⟩
    · intro e he hne
      exact (hold e he).resolve_right fun hnew => hne hnew.1
    · intro e he _
      exact (h.mem_or_gone he).imp_left fun hin => List.mem_append_left _ hin
    · intro own hown _ hgranted
      refine .held ((hold own hown).resolve_right fun hnew => ?_)
      rw [hnew.2.1] at hgranted
      exact absurd hgranted (by simp)
    · intro _ e he howner
      exact List.mem_append_left _ (h.mem_own he howner)
    · intro e he _ _
      exact ⟨hv, (hold e he).imp_right fun hnew => ⟨hcond.1, hnew.2.2⟩⟩
  · exact ⟨⟨hd', fun e he _ => h.sublist.subset he, fun e he _ => h.mem_or_gone he,
      fun own hown _ _ => .held (h.sublist.subset hown)⟩, fun hg => absurd hg hv,
      fun _ e he => h.mem_own he, fun e he _ _ => ⟨hv, Or.inl (h.sublist.subset he)⟩⟩

theorem attempted_admit {c c' : Contest σ L} (hd : Distinct c.entries)
    (h : Thinned gone locker c c') (hclear : c'.holdout locker mode = none)
    (hnone : ∀ e ∈ c'.entries, e.owner ≠ locker) :
    Attempted (gone c'.lockers) locker mode wait c.entries .granted
      (c'.entries ++ [LockEntry.ofRequest c'.lockers locker mode true]) := by
  have hcases : ∀ e ∈ c'.entries ++ [LockEntry.ofRequest c'.lockers locker mode true],
      e ∈ c'.entries ∨ e = LockEntry.ofRequest c'.lockers locker mode true := by
    intro e he
    exact (List.mem_append.mp he).imp_right List.mem_singleton.mp
  have hother : ∀ e ∈ c'.entries ++ [LockEntry.ofRequest c'.lockers locker mode true],
      e.owner ≠ locker → e ∈ c'.entries := by
    intro e he hne
    refine (hcases e he).resolve_right fun hnew => hne ?_
    rw [hnew]
    rfl
  refine ⟨⟨(hd.sublist h.sublist).append hnone, ?_, ?_, ?_⟩, fun _ => ?_,
    fun hv => absurd rfl hv, ?_⟩
  · intro e he hne
    exact h.sublist.subset (hother e he hne)
  · intro e he _
    exact (h.mem_or_gone he).imp_left fun hin => List.mem_append_left _ hin
  · intro own hin howner _
    rcases hcases own hin with hin' | rfl
    · exact absurd howner (hnone own hin')
    · refine .new (fun x hx hxowner => hnone x (h.mem_own hx hxowner) hxowner) rfl ?_
      intro e he hgranted hne
      exact clear_of_holdout_eq_none hclear (hother e he hne) hgranted hne
  · exact ⟨_, List.mem_append_right _ (List.mem_singleton_self _), rfl, rfl,
      LockMode.max_self mode⟩
  · intro e he howner hqueued
    rcases hcases e he with hin | rfl
    · exact absurd howner (hnone e hin)
    · exact absurd hqueued (by simp [LockEntry.ofRequest])

omit [Lockers σ L] in
theorem attempted_raise {c c' : Contest σ L} (hd : Distinct c.entries)
    (h : Thinned gone locker c c') (hweak : ¬ c.holds locker mode = true)
    (hclear : c'.holdout locker mode = none) {old : LockEntry L} (hin : old ∈ c'.entries)
    (howner : old.owner = locker) :
    Attempted (gone c'.lockers) locker mode wait c.entries .granted
      (c'.entries.map fun e' => if e'.owner = locker then
        { old with mode := old.mode.max mode, granted := true, listeners := [] } else e') := by
  have hcases : ∀ e ∈ c'.entries.map (fun e' => if e'.owner = locker then
      { old with mode := old.mode.max mode, granted := true, listeners := [] } else e'),
      e ∈ c'.entries ∧ e.owner ≠ locker ∨
        e = { old with mode := old.mode.max mode, granted := true, listeners := [] } := by
    intro e he
    obtain ⟨x, hx, rfl⟩ := List.mem_map.mp he
    split
    · exact Or.inr rfl
    · rename_i hne
      exact Or.inl ⟨hx, hne⟩
  have hother : ∀ e ∈ c'.entries.map (fun e' => if e'.owner = locker then
      { old with mode := old.mode.max mode, granted := true, listeners := [] } else e'),
      e.owner ≠ locker → e ∈ c'.entries := fun e he hne =>
    ((hcases e he).resolve_right fun hraised => hne (by rw [hraised]; exact howner)).1
  refine ⟨⟨?_, ?_, ?_, ?_⟩, fun _ => ?_, fun hv => absurd rfl hv, ?_⟩
  · refine (hd.sublist h.sublist).map fun e _ => ?_
    split
    · rename_i heowner
      exact howner.trans heowner.symm
    · rfl
  · intro e he hne
    exact h.sublist.subset (hother e he hne)
  · intro e he hne
    exact (h.mem_or_gone he).imp_left fun hkept =>
      List.mem_map.mpr ⟨e, hkept, if_neg hne⟩
  · intro own hmem hownowner _
    rcases hcases own hmem with ⟨-, hne⟩ | rfl
    · exact absurd hownowner hne
    · refine .raised old (h.sublist.subset hin) howner rfl (fun hgranted hmode => hweak ?_) ?_
      · exact (holds_iff hd).mpr ⟨old, h.sublist.subset hin, howner, hgranted, hmode⟩
      · intro e he hgranted hne
        exact clear_of_holdout_eq_none hclear (hother e he hne) hgranted hne
  · exact ⟨_, List.mem_map.mpr ⟨old, hin, if_pos howner⟩, howner, rfl,
      LockMode.max_max_self old.mode mode⟩
  · intro e he heowner hqueued
    rcases hcases e he with ⟨-, hne⟩ | rfl
    · exact absurd heowner hne
    · exact absurd hqueued (by simp)

/-- An attempt that nobody stands in the way of is granted. -/
theorem attempted_grant {c c' : Contest σ L} (hd : Distinct c.entries)
    (h : Thinned gone locker c c') (hweak : ¬ c.holds locker mode = true)
    (hclear : c'.holdout locker mode = none) :
    Attempted (gone c'.lockers) locker mode wait c.entries .granted
      (c'.grant locker mode).entries := by
  unfold grant
  cases hown : c'.own locker with
  | none => exact attempted_admit hd h hclear (own_eq_none_iff.mp hown)
  | some old =>
      obtain ⟨hin, howner⟩ := (own_eq_some_iff (hd.sublist h.sublist)).mp hown
      exact attempted_raise hd h hweak hclear hin howner

theorem lockers_enqueue (c : Contest σ L) : (c.enqueue wait locker mode).lockers = c.lockers := by
  unfold enqueue
  split <;> rfl

theorem lockers_grant (c : Contest σ L) : (c.grant locker mode).lockers = c.lockers := by
  unfold grant
  split <;> rfl

/-- **What an attempt does.**  Others gain nothing and lose an entry only when they are gone; the
locker holds the key when it is granted, and keeps its place when it is blocked. -/
theorem attempt_spec (hfinal : Lockers.Final gone) {c : Contest σ L} (hd : Distinct c.entries) :
    Attempted (gone (c.attempt now parked locker mode wait).2.lockers) locker mode wait c.entries
      (c.attempt now parked locker mode wait).1
      (c.attempt now parked locker mode wait).2.entries := by
  have hevict : Thinned gone locker c (c.evictExpired now parked locker) :=
    evictExpired_thinned hfinal hd
  have hd' := hd.sublist hevict.sublist
  have hwound : Thinned gone locker c
      ((c.evictExpired now parked locker).woundRivals parked locker mode) :=
    hevict.trans (woundRivals_thinned hfinal hd')
  unfold attempt
  simp only
  split
  · rename_i hholds
    exact attempted_held hd hevict hholds
  · rename_i hholds
    split
    · simp only [lockers_enqueue]
      exact attempted_enqueue hd hevict (by simp)
    · split
      · simp only [lockers_enqueue]
        exact attempted_enqueue hd hwound (by simp)
      · rename_i hclear
        simp only [lockers_grant]
        refine attempted_grant hd hwound (fun hheld => hholds ?_) hclear
        obtain ⟨e, he, howner, h⟩ := (holds_iff hd).mp hheld
        exact (holds_iff hd').mpr ⟨e, hevict.mem_own he howner, howner, h⟩

/-- Where nobody else has an entry, nobody is asked to give up and the attempt is granted. -/
theorem attempt_alone {c : Contest σ L} (h : ∀ e ∈ c.entries, e.owner = locker) :
    (c.attempt now parked locker mode wait).1 = .granted ∧
      (c.attempt now parked locker mode wait).2.lockers = c.lockers := by
  have hevict : c.evictExpired now parked locker = c := by
    have hnil : c.entries.filter (fun e =>
        e.granted && decide (e.owner ≠ locker) && e.isExpired now) = [] :=
      List.filter_eq_nil_iff.mpr fun e he => by simp [h e he]
    simp only [evictExpired, hnil]
    rfl
  have hrival : ∀ e ∈ c.entries, e.rivals locker mode = false :=
    fun e he => by simp [LockEntry.rivals, h e he]
  have hwound : c.woundRivals parked locker mode = c := by
    have hnil : c.entries.filter (fun e => e.granted && e.rivals locker mode) = [] :=
      List.filter_eq_nil_iff.mpr fun e he => by simp [hrival e he]
    simp only [woundRivals, hnil]
    rfl
  have helder : c.elder locker mode = none :=
    LockEntry.eldest_eq_none_iff.mpr
      (List.filter_eq_nil_iff.mpr fun e he => by simp [hrival e he])
  have hholdout : c.holdout locker mode = none :=
    LockEntry.eldest_eq_none_iff.mpr
      (List.filter_eq_nil_iff.mpr fun e he => by simp [hrival e he])
  unfold attempt
  simp only [hevict, helder, hwound, hholdout]
  split
  · exact ⟨rfl, rfl⟩
  · exact ⟨rfl, lockers_grant c⟩

/-- What every wound of somebody else keeps, an attempt keeps. -/
theorem lockers_attempt {R : σ → σ → Prop} (hrefl : ∀ s, R s s)
    (htrans : ∀ s₁ s₂ s₃, R s₁ s₂ → R s₂ s₃ → R s₁ s₃)
    (hwound : ∀ s l reason, l ≠ locker → R s (Lockers.wound s l reason).2) (c : Contest σ L) :
    R c.lockers (c.attempt now parked locker mode wait).2.lockers := by
  have hevict : R c.lockers (c.evictExpired now parked locker).lockers := by
    refine lockers_foldl_oust hrefl htrans _ ?_ c
    intro s l hl reason
    obtain ⟨e, he, rfl⟩ := List.mem_map.mp hl
    have hother := (List.mem_filter.mp he).2
    simp only [Bool.and_eq_true, decide_eq_true_eq] at hother
    exact hwound s e.owner reason hother.1.2
  have hrivals : R c.lockers ((c.evictExpired now parked locker).woundRivals parked locker
      mode).lockers := by
    refine htrans _ _ _ hevict (lockers_foldl_oust hrefl htrans _ ?_ _)
    intro s l hl reason
    obtain ⟨e, he, rfl⟩ := List.mem_map.mp hl
    have hrival := (List.mem_filter.mp he).2
    simp only [LockEntry.rivals, Bool.and_eq_true, decide_eq_true_eq] at hrival
    exact hwound s e.owner reason hrival.2.1
  unfold attempt
  simp only
  split
  · exact hevict
  · split
    · rwa [lockers_enqueue]
    · split
      · rwa [lockers_enqueue]
      · rwa [lockers_grant]

end Contest

end ObjectStore
