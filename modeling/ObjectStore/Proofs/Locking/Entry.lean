/-
Entries of one key, before and after a request.

No locker has two entries on a key.  A request by one locker leaves the entries of others alone,
except that a holder that is gone loses its entry; `Spared` says so.  `Attempted` and `Turned` add
what becomes of the locker's own entry in one attempt and in one turn of a waiting call.

The modes of the holders of a key agree if a writer is alone.  `Attempted.exclusive_iff` says when
an attempt keeps it so: always, unless the locker is let in to read although it is queued to write.
-/
import Mathlib.Data.List.Nodup
import ObjectStore.Locking.Contest
import ObjectStore.Locking.Turn

namespace ObjectStore.LockEntry

variable {L : Type}

/-! ### One entry for each locker -/

/-- No locker has two entries. -/
def Distinct (es : List (LockEntry L)) : Prop := (es.map (·.owner)).Nodup

namespace Distinct

variable {es : List (LockEntry L)}

theorem eq_of_owner (h : Distinct es) {e e' : LockEntry L} (he : e ∈ es) (he' : e' ∈ es)
    (howner : e.owner = e'.owner) : e = e' :=
  List.inj_on_of_nodup_map h he he' howner

theorem sublist (h : Distinct es) {es' : List (LockEntry L)} (hs : es'.Sublist es) :
    Distinct es' :=
  List.Nodup.sublist (hs.map _) h

theorem map {f : LockEntry L → LockEntry L} (h : Distinct es)
    (hf : ∀ e ∈ es, (f e).owner = e.owner) : Distinct (es.map f) := by
  have heq : (es.map f).map (·.owner) = es.map (·.owner) := by
    rw [List.map_map]
    exact List.map_congr_left hf
  unfold Distinct
  rw [heq]
  exact h

theorem append {e : LockEntry L} (h : Distinct es) (hnew : ∀ x ∈ es, x.owner ≠ e.owner) :
    Distinct (es ++ [e]) := by
  unfold Distinct
  rw [List.map_append, List.nodup_append]
  refine ⟨h, by simp, ?_⟩
  intro a ha b hb hab
  obtain ⟨x, hx, rfl⟩ := List.mem_map.mp ha
  exact hnew x hx (hab.trans (by simpa using hb))

variable [DecidableEq L]

theorem find?_eq_some_iff (h : Distinct es) {l : L} {e : LockEntry L} :
    es.find? (·.owner = l) = some e ↔ e ∈ es ∧ e.owner = l := by
  constructor
  · intro hfind
    exact ⟨List.mem_of_find?_eq_some hfind, by simpa using List.find?_some hfind⟩
  · rintro ⟨hmem, howner⟩
    cases hfind : es.find? (·.owner = l) with
    | none => exact absurd howner (by simpa using List.find?_eq_none.mp hfind e hmem)
    | some e' =>
        have howner' : e'.owner = l := by simpa using List.find?_some hfind
        rw [h.eq_of_owner (List.mem_of_find?_eq_some hfind) hmem (howner'.trans howner.symm)]

theorem mem_eraseP (h : Distinct es) {l : L} {e : LockEntry L} :
    e ∈ es.eraseP (·.owner = l) ↔ e ∈ es ∧ e.owner ≠ l := by
  induction es with
  | nil => simp
  | cons a rest ih =>
      obtain ⟨hnew, hrest⟩ := List.nodup_cons.mp h
      by_cases ha : a.owner = l
      · have hne : ∀ x ∈ rest, x.owner ≠ l := fun x hx hl =>
          hnew (List.mem_map.mpr ⟨x, hx, hl.trans ha.symm⟩)
        rw [List.eraseP_cons_of_pos (by simpa using ha)]
        constructor
        · intro he
          exact ⟨List.mem_cons_of_mem _ he, hne e he⟩
        · rintro ⟨he, hl⟩
          rcases List.mem_cons.mp he with rfl | hmem
          · exact absurd ha hl
          · exact hmem
      · rw [List.eraseP_cons_of_neg (by simpa using ha), List.mem_cons, List.mem_cons, ih hrest]
        constructor
        · rintro (rfl | ⟨he, hl⟩)
          · exact ⟨Or.inl rfl, ha⟩
          · exact ⟨Or.inr he, hl⟩
        · rintro ⟨rfl | he, hl⟩
          · exact Or.inl rfl
          · exact Or.inr ⟨he, hl⟩

end Distinct

/-! ### What a call does to the entries of a key -/

/-- How a locker has come by the entry with which it holds the key. -/
inductive Gain (locker : L) (mode : LockMode) (es es' : List (LockEntry L)) (own : LockEntry L) :
    Prop where
  /-- It held the key before. -/
  | held (hold : own ∈ es)
  /-- The entry it had was raised, and no other holder conflicts with what it asked for. -/
  | raised (old : LockEntry L) (hold : old ∈ es) (howner : old.owner = locker)
    (hmode : own.mode = old.mode.max mode) (hweak : old.granted = true → own.mode ≠ old.mode)
    (hclear : ∀ e ∈ es', e.granted = true → e.owner ≠ locker → mode.conflictsWith e.mode = false)
  /-- It had no entry, and no other holder conflicts with what it asked for. -/
  | new (hnone : ∀ e ∈ es, e.owner ≠ locker) (hmode : own.mode = mode)
    (hclear : ∀ e ∈ es', e.granted = true → e.owner ≠ locker → mode.conflictsWith e.mode = false)

/-- What any call of a locker does.  Nobody else gains an entry, and nobody else loses one but
holders that are gone; what the locker holds it has come by in one of the three ways. -/
structure Handled (gone : L → Prop) (locker : L) (mode : LockMode) (es es' : List (LockEntry L)) :
    Prop where
  distinct : Distinct es'
  others : ∀ e ∈ es', e.owner ≠ locker → e ∈ es
  kept : ∀ e ∈ es, e.owner ≠ locker → e ∈ es' ∨ e.granted = true ∧ gone e.owner
  gain : ∀ own ∈ es', own.owner = locker → own.granted = true → Gain locker mode es es' own

/-- The locker holds the key in a mode at least as strong as `mode`. -/
def Holds (locker : L) (mode : LockMode) (es : List (LockEntry L)) : Prop :=
  ∃ e ∈ es, e.owner = locker ∧ e.granted = true ∧ e.mode.max mode = e.mode

/-- What an attempt does.  Blocked, the locker keeps the entry it has; having none, it is queued if
it wishes to wait. -/
structure Attempted (gone : L → Prop) (locker : L) (mode : LockMode) (wait : Bool)
    (es : List (LockEntry L)) (verdict : Verdict L) (es' : List (LockEntry L)) : Prop
    extends Handled gone locker mode es es' where
  granted : verdict = .granted → Holds locker mode es'
  kept_own : verdict ≠ .granted → ∀ e ∈ es, e.owner = locker → e ∈ es'
  queued : ∀ e ∈ es', e.owner = locker → e.granted = false →
    verdict ≠ .granted ∧ (e ∈ es ∨ wait = true ∧ e.mode = mode)

/-- What one turn of a waiting call does.  Only a call that goes on waiting is in the queue. -/
structure Turned (gone : L → Prop) (locker : L) (mode : LockMode) (es : List (LockEntry L))
    (turn : LockTurn L) (es' : List (LockEntry L)) : Prop
    extends Handled gone locker mode es es' where
  granted : turn = .granted → Holds locker mode es'
  kept_own : turn ≠ .granted → ∀ e ∈ es, e.owner = locker → e.granted = true → e ∈ es'
  queued : ∀ e ∈ es', e.owner = locker → e.granted = false →
    (∃ signal, turn = .waiting signal) ∧ (e ∈ es ∨ e.mode = mode)

theorem Gain.mono {locker : L} {mode : LockMode} {es es' es'' : List (LockEntry L)}
    {own : LockEntry L} (h : Gain locker mode es es' own) (hsub : ∀ e ∈ es'', e ∈ es') :
    Gain locker mode es es'' own := by
  cases h with
  | held hold => exact .held hold
  | raised old hold howner hmode hweak hclear =>
      exact .raised old hold howner hmode hweak fun e he => hclear e (hsub e he)
  | new hnone hmode hclear => exact .new hnone hmode fun e he => hclear e (hsub e he)

theorem Handled.refl {gone : L → Prop} {locker : L} {mode : LockMode} {es : List (LockEntry L)}
    (hd : Distinct es) : Handled gone locker mode es es where
  distinct := hd
  others := fun _ he _ => he
  kept := fun _ he _ => Or.inl he
  gain := fun _ hown _ _ => .held hown

/-- Only the locker's own entry may go without anybody being gone. -/
theorem Handled.narrow {gone : L → Prop} {locker : L} {mode : LockMode}
    {es es' es'' : List (LockEntry L)} (h : Handled gone locker mode es es')
    (hsub : es''.Sublist es') (hother : ∀ e ∈ es', e.owner ≠ locker → e ∈ es'') :
    Handled gone locker mode es es'' where
  distinct := h.distinct.sublist hsub
  others := fun e he => h.others e (hsub.subset he)
  kept := fun e he hne => (h.kept e he hne).imp_left fun hin => hother e hin hne
  gain := fun own hown howner hgranted =>
    (h.gain own (hsub.subset hown) howner hgranted).mono fun _ he => hsub.subset he

/-! ### Holders agree -/

/-- No two lockers hold the key in modes that conflict. -/
def Exclusive (es : List (LockEntry L)) : Prop :=
  ∀ e ∈ es, ∀ e' ∈ es, e.granted = true → e'.granted = true → e.owner ≠ e'.owner →
    e.mode.conflictsWith e'.mode = false

/-- The locker is queued to write, asks to read, and is let in beside another holder. -/
structure Oversteps (locker : L) (mode : LockMode) (es es' : List (LockEntry L)) : Prop where
  reads : mode = .read
  queued : ∃ e ∈ es, e.owner = locker ∧ e.granted = false ∧ e.mode = .write
  holds : ∃ e ∈ es', e.owner = locker ∧ e.granted = true
  beside : ∃ e ∈ es', e.owner ≠ locker ∧ e.granted = true

namespace Handled

variable {gone : L → Prop} {locker : L} {mode : LockMode} {es es' : List (LockEntry L)}

/-- What the locker holds after a call agrees with what the others hold, unless it oversteps. -/
theorem agrees_or_oversteps (h : Handled gone locker mode es es') (hex : Exclusive es)
    {own e : LockEntry L} (hown : own ∈ es') (howner : own.owner = locker)
    (hgranted : own.granted = true) (he : e ∈ es') (hne : e.owner ≠ locker)
    (hegranted : e.granted = true) :
    own.mode.conflictsWith e.mode = false ∨ Oversteps locker mode es es' := by
  cases h.gain own hown howner hgranted with
  | held hold =>
      have hne' : own.owner ≠ e.owner := fun hc => hne (hc.symm.trans howner)
      exact Or.inl (hex own hold e (h.others e he hne) hgranted hegranted hne')
  | new hnone hmode hclear =>
      rw [hmode]
      exact Or.inl (hclear e he hegranted hne)
  | raised old hold holdowner hmode hweak hclear =>
      have hno := hclear e he hegranted hne
      -- Only a queued request to write is stronger than what was asked for and checked.
      by_cases hover : mode = .read ∧ old.mode = .write
      · obtain ⟨hread, hwrite⟩ := hover
        have hqueued : old.granted = false := by
          by_contra hc
          refine hweak (Bool.of_not_eq_false hc) ?_
          rw [hmode, hread, hwrite]
          rfl
        exact Or.inr ⟨hread, ⟨old, hold, holdowner, hqueued, hwrite⟩,
          ⟨own, hown, howner, hgranted⟩, ⟨e, he, hne, hegranted⟩⟩
      · refine Or.inl ?_
        have hsame : own.mode = mode := by
          rw [hmode]
          revert hover
          cases mode <;> cases old.mode <;> simp [LockMode.max]
        rw [hsame]
        exact hno

theorem conflict_of_oversteps (h : Handled gone locker mode es es') (hd : Distinct es)
    (hover : Oversteps locker mode es es') : ¬ Exclusive es' := by
  intro hex
  obtain ⟨hread, ⟨old, hold, holdowner, hqueued, hwrite⟩, ⟨own, hown, howner, hgranted⟩,
    ⟨e, he, hne, hegranted⟩⟩ := hover
  have hmode : own.mode = .write := by
    cases h.gain own hown howner hgranted with
    | held hheld =>
        rw [hd.eq_of_owner hheld hold (howner.trans holdowner.symm), hqueued] at hgranted
        exact absurd hgranted (by simp)
    | new hnone => exact absurd holdowner (hnone old hold)
    | raised old' hold' holdowner' hmode =>
        rw [hmode, hd.eq_of_owner hold' hold (holdowner'.trans holdowner.symm), hwrite]
        rfl
  have hno := hex own hown e he hgranted hegranted fun hc => hne (hc.symm.trans howner)
  rw [hmode] at hno
  exact absurd hno (by simp [LockMode.conflictsWith])

/-- **A call keeps the holders of a key in agreement exactly if the locker does not overstep.** -/
theorem exclusive_iff (h : Handled gone locker mode es es') (hd : Distinct es)
    (hex : Exclusive es) : Exclusive es' ↔ ¬ Oversteps locker mode es es' := by
  constructor
  · intro hex' hover
    exact h.conflict_of_oversteps hd hover hex'
  · intro hover e he e' he' hgranted hgranted' hne
    by_cases hl : e.owner = locker
    · have hne' : e'.owner ≠ locker := fun hc => hne (hl.trans hc.symm)
      exact (h.agrees_or_oversteps hex he hl hgranted he' hne' hgranted').resolve_right hover
    · by_cases hl' : e'.owner = locker
      · rw [LockMode.conflictsWith_comm]
        exact (h.agrees_or_oversteps hex he' hl' hgranted' he hl hgranted).resolve_right hover
      · exact hex e (h.others e he hl) e' (h.others e' he' hl') hgranted hgranted' hne

end Handled

end ObjectStore.LockEntry
