/-
A record of who is asked to give up.

The record stands beside the lockers.  Lockers with a record answer as they do without one, so that
an attempt that keeps a record is an attempt, with nothing added but the list of those it asked.
`LockTable.attempt_forget` says so, and `LockTable.wounds` is the list.

`Contest.Asked` says what an attempt asks and what comes of it: everyone who is asked holds the key
at that moment and has either run out of time or stands in the way without precedence; exactly those
who give up lose their entries, and their parked calls wake.
-/
import ObjectStore.Proofs.Locking.Waiting

namespace ObjectStore

open LockEntry (Distinct)

/-- A locker is asked to give up. -/
structure Wound (L : Type) where
  target : L
  reason : WoundReason L
  /-- The answer. -/
  gaveUp : Bool
  deriving DecidableEq, Repr

/-- Lockers, and everyone who has been asked to give up, the last one at the end. -/
structure Recorded (σ L : Type) where
  lockers : σ
  wounds : List (Wound L)

namespace Recorded

variable {σ L : Type} [Lockers σ L]

instance : Lockers (Recorded σ L) L where
  seniority r := Lockers.seniority r.lockers
  ordinal r := Lockers.ordinal r.lockers
  deadline r := Lockers.deadline r.lockers
  isActive r := Lockers.isActive r.lockers
  wound r target reason :=
    let (gaveUp, lockers) := Lockers.wound r.lockers target reason
    (gaveUp, ⟨lockers, r.wounds ++ [⟨target, reason, gaveUp⟩]⟩)

@[simp] theorem wound_eq (r : Recorded σ L) (target : L) (reason : WoundReason L) :
    Lockers.wound r target reason =
      ((Lockers.wound r.lockers target reason).1,
        ⟨(Lockers.wound r.lockers target reason).2,
          r.wounds ++ [⟨target, reason, (Lockers.wound r.lockers target reason).1⟩]⟩) := rfl

theorem ageless (hage : Lockers.Ageless σ) : Lockers.Ageless (Recorded σ L) :=
  fun r l reason l' => hage r.lockers l reason l'

end Recorded

/-! ### Without the record -/

namespace Contest

variable {σ L : Type}

/-- The contest without the record. -/
def forget (c : Contest (Recorded σ L) L) : Contest σ L := ⟨c.lockers.lockers, c.entries, c.woken⟩

variable [DecidableEq L] {c : Contest (Recorded σ L) L} {locker : L} {mode : LockMode}

theorem remove_forget : c.forget.remove locker = (c.remove locker).forget := by
  have hown : c.forget.own locker = c.own locker := rfl
  unfold remove
  rw [hown]
  cases c.own locker <;> rfl

variable [Lockers σ L] {parked : FinMap L Signal} {reason : WoundReason L} {now : Nat} {wait : Bool}

theorem oust_forget (holder : L) :
    c.forget.oust parked reason holder = (c.oust parked reason holder).forget := by
  obtain ⟨⟨s, wounds⟩, entries, woken⟩ := c
  unfold oust
  simp only [forget, Recorded.wound_eq]
  rcases Lockers.wound s holder reason with ⟨_ | _, s'⟩
  · rfl
  · have hremove := @remove_forget _ _ _
      (⟨⟨s', wounds ++ [⟨holder, reason, true⟩]⟩, entries, woken⟩ : Contest (Recorded σ L) L) holder
    simp only [forget] at hremove
    simp only [hremove]

theorem foldl_oust_forget (holders : List L) :
    ∀ c : Contest (Recorded σ L) L,
      holders.foldl (oust parked reason) c.forget = (holders.foldl (oust parked reason) c).forget := by
  induction holders with
  | nil => intro c; rfl
  | cons holder rest ih =>
      intro c
      rw [List.foldl_cons, List.foldl_cons, oust_forget, ih]

theorem enqueue_forget : c.forget.enqueue wait locker mode = (c.enqueue wait locker mode).forget := by
  have hown : c.forget.own locker = c.own locker := rfl
  unfold enqueue
  rw [hown]
  split <;> rfl

theorem grant_forget : c.forget.grant locker mode = (c.grant locker mode).forget := by
  have hown : c.forget.own locker = c.own locker := rfl
  unfold grant
  rw [hown]
  cases c.own locker <;> rfl

theorem attempt_forget (now : Nat) (parked : FinMap L Signal) (locker : L) (mode : LockMode)
    (wait : Bool) (c : Contest (Recorded σ L) L) :
    c.forget.attempt now parked locker mode wait =
      ((c.attempt now parked locker mode wait).1,
        (c.attempt now parked locker mode wait).2.forget) := by
  have hevict : c.forget.evictExpired now parked locker = (c.evictExpired now parked locker).forget :=
    foldl_oust_forget _ c
  have hrivals : ∀ c : Contest (Recorded σ L) L, c.forget.woundRivals parked locker mode =
      (c.woundRivals parked locker mode).forget := fun c => foldl_oust_forget _ c
  have hholds : ∀ c : Contest (Recorded σ L) L, c.forget.holds locker mode = c.holds locker mode :=
    fun _ => rfl
  have helder : ∀ c : Contest (Recorded σ L) L, c.forget.elder locker mode = c.elder locker mode :=
    fun _ => rfl
  have hholdout : ∀ c : Contest (Recorded σ L) L,
      c.forget.holdout locker mode = c.holdout locker mode := fun _ => rfl
  unfold attempt
  simp only [hevict, hholds, helder, hrivals, hholdout]
  split
  · rfl
  · split
    · rw [enqueue_forget]
    · split
      · rw [enqueue_forget]
      · rw [grant_forget]

end Contest

/-! ### What is left when some give up -/

namespace LockEntry

variable {L : Type} [DecidableEq L]

/-- The entries of those who have not given up. -/
def left (ws : List (Wound L)) (es : List (LockEntry L)) : List (LockEntry L) :=
  es.filter fun e => ws.all fun w => decide (w.target = e.owner → w.gaveUp = false)

variable {ws ws' : List (Wound L)} {es : List (LockEntry L)} {e : LockEntry L}

@[simp] theorem mem_left :
    e ∈ left ws es ↔ e ∈ es ∧ ∀ w ∈ ws, w.target = e.owner → w.gaveUp = false := by
  simp only [left, List.mem_filter, List.all_eq_true, decide_eq_true_eq]

theorem mem_left_append : e ∈ left (ws ++ ws') es ↔ e ∈ left ws' (left ws es) := by
  simp only [mem_left, List.mem_append]
  constructor
  · rintro ⟨he, hall⟩
    exact ⟨⟨he, fun w hw => hall w (Or.inl hw)⟩, fun w hw => hall w (Or.inr hw)⟩
  · rintro ⟨⟨he, hws⟩, hws'⟩
    exact ⟨he, fun w hw => hw.elim (hws w) (hws' w)⟩

/-- The entry is a reason to ask its owner to give up for a request of a locker of this rank: it is
granted, and it has expired, or it conflicts and does not have precedence. -/
structure Warrants (now : Nat) (rank : Rank) (locker : L) (mode : LockMode) (w : Wound L)
    (e : LockEntry L) : Prop where
  owner : e.owner = w.target
  other : e.owner ≠ locker
  granted : e.granted = true
  cause : w.reason = .expired ∧ e.deadline < now ∨
    w.reason = .outranked locker ∧ mode.conflictsWith e.mode = true ∧ e.rank.before rank = false

/-- On behalf of a locker the wounds `ws` are issued, one after another.  Each has an entry that is
left then to warrant it, and of the entries of others those are left whose owners do not give up. -/
structure Asked (now : Nat) (rank : Rank) (locker : L) (mode : LockMode) (es : List (LockEntry L))
    (ws : List (Wound L)) (es' : List (LockEntry L)) : Prop where
  warranted : ∀ before w after, ws = before ++ w :: after →
    ∃ e ∈ left before es, Warrants now rank locker mode w e
  others : ∀ e, e.owner ≠ locker → (e ∈ es' ↔ e ∈ left ws es)

namespace Asked

variable {now : Nat} {rank : Rank} {locker : L} {mode : LockMode} {es' es'' : List (LockEntry L)}

theorem nil (h : ∀ e, e.owner ≠ locker → (e ∈ es' ↔ e ∈ es)) :
    Asked now rank locker mode es [] es' where
  warranted := fun before w after heq => absurd heq (by simp)
  others := fun e hne => by simp [h e hne]

theorem trans (h : Asked now rank locker mode es ws es') (h' : Asked now rank locker mode es' ws' es'') :
    Asked now rank locker mode es (ws ++ ws') es'' where
  warranted := by
    -- What was left after the first wounds is left of the entries before them.
    have hlater : ∀ before w after, ws' = before ++ w :: after →
        ∃ e ∈ left (ws ++ before) es, Warrants now rank locker mode w e := by
      intro before w after heq
      obtain ⟨e, he, hwarrants⟩ := h'.warranted before w after heq
      obtain ⟨hin, hkept⟩ := mem_left.mp he
      refine ⟨e, mem_left_append.mpr (mem_left.mpr ⟨?_, hkept⟩), hwarrants⟩
      exact (h.others e hwarrants.other).mp hin
    intro before w after heq
    rcases List.append_eq_append_iff.mp heq with ⟨rest, rfl, hws'⟩ | ⟨rest, hws, hrest⟩
    · exact hlater rest w after hws'
    · cases rest with
      | nil =>
          rw [List.append_nil] at hws
          rw [← hws, ← List.append_nil ws]
          exact hlater [] w after hrest.symm
      | cons w' rest =>
          obtain ⟨rfl, -⟩ := List.cons.inj hrest
          exact h.warranted before w rest hws
  others := by
    intro e hne
    rw [h'.others e hne, mem_left_append, mem_left, @mem_left _ _ ws' (left ws es), h.others e hne]

/-- Whoever loses an entry has given up. -/
theorem exists_wound (h : Asked now rank locker mode es ws es') {e : LockEntry L} (he : e ∈ es)
    (hne : e.owner ≠ locker) (hlost : e ∉ es') : ∃ w ∈ ws, w.target = e.owner ∧ w.gaveUp = true := by
  by_contra hnone
  refine hlost ((h.others e hne).mpr (mem_left.mpr ⟨he, fun w hw howner => ?_⟩))
  by_contra hgave
  exact hnone ⟨w, hw, howner, Bool.of_not_eq_false hgave⟩

theorem request (h : Asked now rank locker mode es ws es') :
    Asked now rank locker mode (es.map LockEntry.request) ws (es'.map LockEntry.request) where
  warranted := by
    intro before w after heq
    obtain ⟨e, he, hwarrants⟩ := h.warranted before w after heq
    obtain ⟨hin, hkept⟩ := mem_left.mp he
    exact ⟨e.request, mem_left.mpr ⟨List.mem_map_of_mem hin, hkept⟩, hwarrants.owner,
      hwarrants.other, hwarrants.granted, hwarrants.cause⟩
  others := by
    intro e hne
    rw [mem_left]
    constructor
    · intro he
      obtain ⟨x, hx, rfl⟩ := List.mem_map.mp he
      obtain ⟨hin, hkept⟩ := mem_left.mp ((h.others x hne).mp hx)
      exact ⟨List.mem_map_of_mem hin, hkept⟩
    · rintro ⟨he, hkept⟩
      obtain ⟨x, hx, rfl⟩ := List.mem_map.mp he
      exact List.mem_map_of_mem ((h.others x hne).mpr (mem_left.mpr ⟨hx, hkept⟩))

end Asked

end LockEntry

namespace Contest

open LockEntry (left mem_left Warrants)

variable {σ L : Type} [DecidableEq L]

/-- From `c` to `c'` the wounds `ws` have been issued and recorded, and the parked calls of those who
gave up have been woken. -/
structure Asked (now : Nat) (parked : FinMap L Signal) (rank : Rank) (locker : L) (mode : LockMode)
    (c : Contest (Recorded σ L) L) (ws : List (Wound L)) (c' : Contest (Recorded σ L) L) : Prop
    extends LockEntry.Asked now rank locker mode c.entries ws c'.entries where
  record : c'.lockers.wounds = c.lockers.wounds ++ ws
  woken : ∀ n ∈ c.woken, n ∈ c'.woken
  told : ∀ w ∈ ws, w.gaveUp = true → ∀ n, parked.get? w.target = some n → n ∈ c'.woken

variable {now : Nat} {parked : FinMap L Signal} {rank : Rank} {locker : L} {mode : LockMode}
variable {c c' c'' : Contest (Recorded σ L) L} {ws ws' : List (Wound L)}

theorem Asked.nil (hrecord : c'.lockers.wounds = c.lockers.wounds)
    (hothers : ∀ e, e.owner ≠ locker → (e ∈ c'.entries ↔ e ∈ c.entries))
    (hwoken : ∀ n ∈ c.woken, n ∈ c'.woken) : Asked now parked rank locker mode c [] c' where
  toAsked := .nil hothers
  record := by rw [hrecord, List.append_nil]
  woken := hwoken
  told := fun w hw => absurd hw List.not_mem_nil

theorem Asked.trans (h : Asked now parked rank locker mode c ws c')
    (h' : Asked now parked rank locker mode c' ws' c'') :
    Asked now parked rank locker mode c (ws ++ ws') c'' where
  toAsked := h.toAsked.trans h'.toAsked
  record := by rw [h'.record, h.record, List.append_assoc]
  woken := fun n hn => h'.woken n (h.woken n hn)
  told := by
    intro w hw hgave n hn
    rcases List.mem_append.mp hw with hin | hin
    · exact h'.woken n (h.told w hin hgave n hn)
    · exact h'.told w hin hgave n hn

theorem woken_remove (c : Contest (Recorded σ L) L) (holder : L) :
    ∀ n ∈ c.woken, n ∈ (c.remove holder).woken := by
  intro n hn
  unfold remove
  split
  · exact hn
  · exact List.mem_append_left _ hn

variable [Lockers σ L] {reason : WoundReason L} {wait : Bool}

theorem mem_entries_enqueue_iff (c : Contest σ L) {e : LockEntry L} (hne : e.owner ≠ locker) :
    e ∈ (c.enqueue wait locker mode).entries ↔ e ∈ c.entries := by
  refine ⟨fun he => ?_, mem_entries_enqueue⟩
  unfold enqueue at he
  split at he
  · refine (List.mem_append.mp he).resolve_right fun hlast => hne ?_
    rw [List.mem_singleton.mp hlast]
    rfl
  · exact he

theorem mem_entries_grant_iff (c : Contest σ L) {e : LockEntry L} (hne : e.owner ≠ locker) :
    e ∈ (c.grant locker mode).entries ↔ e ∈ c.entries := by
  unfold grant
  split
  · refine ⟨fun he => (List.mem_append.mp he).resolve_right fun hlast => hne ?_,
      List.mem_append_left _⟩
    rw [List.mem_singleton.mp hlast]
    rfl
  · rename_i own hown
    have howner : own.owner = locker := by simpa using List.find?_some hown
    constructor
    · intro he
      obtain ⟨x, hx, rfl⟩ := List.mem_map.mp he
      split at hne
      · exact absurd howner hne
      · rename_i hother
        rwa [if_neg hother]
    · exact fun he => List.mem_map.mpr ⟨e, he, if_neg hne⟩

theorem asked_oust (hd : Distinct c.entries) {holder : L}
    (hwarrant : ∃ e ∈ c.entries, Warrants now rank locker mode
      ⟨holder, reason, (Lockers.wound c.lockers holder reason).1⟩ e) :
    Asked now parked rank locker mode c
      [⟨holder, reason, (Lockers.wound c.lockers holder reason).1⟩] (c.oust parked reason holder) where
  record := by rw [lockers_oust]; rfl
  warranted := by
    intro before w after heq
    cases before with
    | nil =>
        obtain ⟨rfl, -⟩ := List.cons.inj heq
        simpa [left] using hwarrant
    | cons w' rest => exact absurd heq (by simp)
  others := by
    intro e _
    rw [entries_oust]
    split
    · rename_i hgave
      rw [hd.mem_eraseP, mem_left, List.forall_mem_singleton, hgave]
      exact and_congr_right fun _ => ⟨fun hne howner => absurd howner.symm hne,
        fun h howner => absurd (h howner.symm) (by simp)⟩
    · rename_i hkept
      rw [mem_left, List.forall_mem_singleton]
      exact ⟨fun he => ⟨he, fun _ => Bool.of_not_eq_true hkept⟩, And.left⟩
  woken := by
    unfold oust
    rw [Recorded.wound_eq]
    rcases Lockers.wound c.lockers.lockers holder reason with ⟨_ | _, s⟩
    · exact fun n hn => hn
    · exact fun n hn => List.mem_append_left _ (woken_remove _ holder n hn)
  told := by
    intro w hw hgave n hn
    obtain rfl := List.mem_singleton.mp hw
    unfold oust
    rcases hwound : Lockers.wound c.lockers holder reason with ⟨gaveUp, s⟩
    rw [hwound] at hgave
    cases hgave
    simp only
    rw [hn]
    exact List.mem_append_right _ (List.mem_singleton_self n)

/-- Different holders are asked one after another. -/
theorem asked_foldl_oust {holders : List L} (hnodup : holders.Nodup) :
    ∀ c : Contest (Recorded σ L) L, Distinct c.entries →
      (∀ holder ∈ holders, ∀ gaveUp,
        ∃ e ∈ c.entries, Warrants now rank locker mode ⟨holder, reason, gaveUp⟩ e) →
      ∃ ws, Asked now parked rank locker mode c ws (holders.foldl (oust parked reason) c) ∧
        ∀ holder ∈ holders, ∃ w ∈ ws, w.target = holder ∧ w.reason = reason := by
  induction holders with
  | nil => exact fun c _ _ => ⟨[], .nil rfl (fun _ _ => Iff.rfl) fun _ hn => hn, by simp⟩
  | cons holder rest ih =>
      intro c hd hwarrant
      obtain ⟨hnew, hrest⟩ := List.nodup_cons.mp hnodup
      have hfirst := @asked_oust _ _ _ now parked rank locker mode c _ reason hd holder
        (hwarrant holder List.mem_cons_self _)
      -- The entries of those who are still to be asked stay when the first one is asked.
      obtain ⟨ws, hasked, hall⟩ := ih hrest (c.oust parked reason holder)
        (hd.sublist (entries_oust_sublist c holder)) (by
          intro holder' hin gaveUp
          obtain ⟨e, he, hwarrants⟩ := hwarrant holder' (List.mem_cons_of_mem _ hin) gaveUp
          refine ⟨e, (hfirst.others e hwarrants.other).mpr (mem_left.mpr ⟨he, ?_⟩), hwarrants⟩
          intro w hw howner
          obtain rfl := List.mem_singleton.mp hw
          have hsame : holder = holder' := howner.trans hwarrants.owner
          exact absurd (hsame ▸ hin) hnew)
      refine ⟨_ :: ws, hfirst.trans hasked, fun holder' hin => ?_⟩
      rcases List.mem_cons.mp hin with rfl | hin
      · exact ⟨_, List.mem_cons_self, rfl, rfl⟩
      · obtain ⟨w, hw, h⟩ := hall holder' hin
        exact ⟨w, List.mem_cons_of_mem _ hw, h⟩

theorem asked_evictExpired (hd : Distinct c.entries) :
    ∃ ws, Asked now parked rank locker mode c ws (c.evictExpired now parked locker) := by
  have hnodup : ((c.entries.filter fun e =>
      e.granted && decide (e.owner ≠ locker) && e.isExpired now).map (·.owner)).Nodup :=
    hd.sublist List.filter_sublist
  obtain ⟨ws, hasked, -⟩ := @asked_foldl_oust _ _ _ now parked rank locker mode _ .expired _
    hnodup c hd (by
      intro holder hin gaveUp
      obtain ⟨e, he, rfl⟩ := List.mem_map.mp hin
      obtain ⟨hmem, hdue⟩ := List.mem_filter.mp he
      simp only [Header.isExpired, Bool.and_eq_true, decide_eq_true_eq] at hdue
      exact ⟨e, hmem, rfl, hdue.1.2, hdue.1.1, Or.inl ⟨rfl, hdue.2⟩⟩)
  exact ⟨ws, hasked⟩

/-- Where no entry of precedence is in the way, none of those in the way has precedence. -/
theorem before_eq_false_of_elder {c : Contest σ L}
    (h : c.elder locker mode = none) {e : LockEntry L} (he : e ∈ c.entries)
    (hrivals : e.rivals locker mode = true) :
    e.rank.before (Lockers.rank c.lockers locker) = false := by
  have hnil := LockEntry.eldest_eq_none_iff.mp h
  by_contra hbefore
  have hmem : e ∈ c.entries.filter fun e =>
      e.rivals locker mode && e.rank.before (Lockers.rank c.lockers locker) :=
    List.mem_filter.mpr ⟨he, by simp [hrivals, Bool.of_not_eq_false hbefore]⟩
  rw [hnil] at hmem
  exact List.not_mem_nil hmem

/-- Whoever stands in the way of a locker that nobody has precedence over is asked, and stays in the
way only if it refuses. -/
theorem asked_woundRivals (hd : Distinct c.entries) (hrank : Lockers.rank c.lockers locker = rank)
    (helder : c.elder locker mode = none) :
    ∃ ws, Asked now parked rank locker mode c ws (c.woundRivals parked locker mode) ∧
      ∀ e, (c.woundRivals parked locker mode).holdout locker mode = some e →
        ∃ w ∈ ws, w.target = e.owner ∧ w.reason = .outranked locker ∧ w.gaveUp = false := by
  obtain ⟨ws, hasked, hall⟩ := @asked_foldl_oust _ _ _ now parked rank locker mode _
    (.outranked locker) _ (hd.sublist List.filter_sublist) c hd (by
      intro holder hin gaveUp
      obtain ⟨e, he, rfl⟩ := List.mem_map.mp hin
      obtain ⟨hmem, hcond⟩ := List.mem_filter.mp he
      obtain ⟨hgranted, hrivals⟩ := Bool.and_eq_true_iff.mp hcond
      have hbefore := before_eq_false_of_elder helder hmem hrivals
      rw [hrank] at hbefore
      simp only [LockEntry.rivals, Bool.and_eq_true, decide_eq_true_eq] at hrivals
      exact ⟨e, hmem, rfl, hrivals.1, hgranted, Or.inr ⟨rfl, hrivals.2, hbefore⟩⟩)
  refine ⟨ws, hasked, fun e he => ?_⟩
  obtain ⟨hin, hcond⟩ := List.mem_filter.mp (LockEntry.mem_of_eldest he)
  obtain ⟨hrivals, hgranted⟩ := Bool.and_eq_true_iff.mp hcond
  have hother : e.owner ≠ locker := by
    simp only [LockEntry.rivals, Bool.and_eq_true, decide_eq_true_eq] at hrivals
    exact hrivals.1
  obtain ⟨hmem, hkept⟩ := mem_left.mp ((hasked.others e hother).mp hin)
  obtain ⟨w, hw, htarget, hreason⟩ := hall e.owner
    (List.mem_map_of_mem (List.mem_filter.mpr ⟨hmem, by simp [hgranted, hrivals]⟩))
  exact ⟨w, hw, htarget, hreason, hkept w hw htarget⟩

theorem asked_enqueue : Asked now parked rank locker mode c [] (c.enqueue wait locker mode) := by
  refine .nil (by rw [lockers_enqueue]) (fun e => mem_entries_enqueue_iff c) fun n hn => ?_
  unfold enqueue
  split <;> exact hn

theorem asked_grant : Asked now parked rank locker mode c [] (c.grant locker mode) := by
  refine .nil (by rw [lockers_grant]) (fun e => mem_entries_grant_iff c) fun n hn => ?_
  unfold grant
  split
  · exact hn
  · exact List.mem_append_left _ hn

/-- **Whom an attempt asks**, and why it is blocked: by an entry that has precedence, or by a holder
that was asked and refused. -/
theorem asked_attempt (hage : Lockers.Ageless σ) (hd : Distinct c.entries) :
    ∃ ws, Asked now parked (Lockers.rank c.lockers locker) locker mode c ws
        (c.attempt now parked locker mode wait).2 ∧
      ∀ holder, (c.attempt now parked locker mode wait).1 = .blocked holder →
        ∃ e ∈ (c.attempt now parked locker mode wait).2.entries, e.owner = holder ∧
          e.owner ≠ locker ∧ mode.conflictsWith e.mode = true ∧
          (e.rank.before (Lockers.rank c.lockers locker) = true ∨
            e.granted = true ∧ ∃ w ∈ ws, w.target = holder ∧ w.reason = .outranked locker ∧
              w.gaveUp = false) := by
  obtain ⟨overdue, hevict⟩ := @asked_evictExpired _ _ _ now parked (Lockers.rank c.lockers locker)
    locker mode c _ hd
  have hd' : Distinct (c.evictExpired now parked locker).entries :=
    hd.sublist (entries_foldl_oust_sublist _ c)
  have hrank : Lockers.rank (c.evictExpired now parked locker).lockers locker =
      Lockers.rank c.lockers locker := rank_foldl_oust (Recorded.ageless hage) _ c locker
  unfold attempt
  simp only
  split
  · exact ⟨overdue, hevict, fun holder h => absurd h (by simp)⟩
  · split
    · rename_i e helder
      refine ⟨overdue, List.append_nil overdue ▸ hevict.trans asked_enqueue, fun holder h => ?_⟩
      obtain ⟨hin, hbars⟩ := bars_of_elder (fun _ _ => False) helder
      rw [hrank] at hbars
      exact ⟨e, mem_entries_enqueue hin, by simpa using h, hbars.other, hbars.conflicts,
        Or.inl (hbars.cause.resolve_right fun hc => hc.2)⟩
    · rename_i helder
      obtain ⟨rivals, hwound, hrefused⟩ :=
        @asked_woundRivals _ _ _ now parked _ _ _ (c.evictExpired now parked locker) _ hd' hrank helder
      split
      · rename_i e hholdout
        refine ⟨overdue ++ rivals, ?_, fun holder h => ?_⟩
        · exact List.append_nil (overdue ++ rivals) ▸ (hevict.trans hwound).trans asked_enqueue
        · obtain rfl : e.owner = holder := by simpa using h
          obtain ⟨hin, hcond⟩ := List.mem_filter.mp (LockEntry.mem_of_eldest hholdout)
          simp only [LockEntry.rivals, Bool.and_eq_true, decide_eq_true_eq] at hcond
          obtain ⟨w, hw, hwound⟩ := hrefused e hholdout
          exact ⟨e, mem_entries_enqueue hin, rfl, hcond.1.1, hcond.1.2,
            Or.inr ⟨hcond.2, w, List.mem_append_right _ hw, hwound⟩⟩
      · refine ⟨overdue ++ rivals, ?_, fun holder h => absurd h (by simp)⟩
        exact List.append_nil (overdue ++ rivals) ▸ (hevict.trans hwound).trans asked_grant

end Contest

namespace LockTable

variable {K L σ : Type} [Hashable K] [DecidableEq K] [DecidableEq L] [Lockers σ L]
variable {t t' : LockTable K L} {s s' : σ} {now deadline : Nat} {locker : L} {key : K}
variable {mode : LockMode} {wait : Bool}

theorem attempt_forget (now : Nat) (locker : L) (key : K) (mode : LockMode) (wait : Bool)
    (r : Recorded σ L) (t : LockTable K L) :
    t.attempt now locker key mode wait r.lockers =
      ((t.attempt now locker key mode wait r).1, (t.attempt now locker key mode wait r).2.1.lockers,
        (t.attempt now locker key mode wait r).2.2) := by
  have hforget := Contest.attempt_forget now t.parked locker mode wait ⟨r, t.entries key, []⟩
  unfold attempt
  rw [show (⟨r.lockers, t.entries key, []⟩ : Contest σ L) =
    Contest.forget ⟨r, t.entries key, []⟩ from rfl, hforget]
  rfl

/-- Those whom an attempt asks to give up, in order. -/
def wounds (now : Nat) (locker : L) (key : K) (mode : LockMode) (wait : Bool) (s : σ)
    (t : LockTable K L) : List (Wound L) :=
  (t.attempt now locker key mode wait (⟨s, []⟩ : Recorded σ L)).2.1.wounds

/-- **What an attempt asks and what comes of it.** -/
theorem asked_attempt (hage : Lockers.Ageless σ) (hd : t.Distinct) {verdict : Verdict L}
    (h : t.attempt now locker key mode wait s = (verdict, s', t')) :
    LockEntry.Asked now (Lockers.rank s locker) locker mode (t.requests key)
        (t.wounds now locker key mode wait s) (t'.requests key) ∧
      (∀ w ∈ t.wounds now locker key mode wait s, w.gaveUp = true →
        ∀ n, t.parked.get? w.target = some n → t'.isNotified n = true) ∧
      ∀ holder, verdict = .blocked holder →
        ∃ e ∈ t'.requests key, e.owner = holder ∧ e.owner ≠ locker ∧
          mode.conflictsWith e.mode = true ∧
          (e.rank.before (Lockers.rank s locker) = true ∨
            e.granted = true ∧ ∃ w ∈ t.wounds now locker key mode wait s, w.target = holder ∧
              w.reason = .outranked locker ∧ w.gaveUp = false) := by
  rw [attempt_forget now locker key mode wait ⟨s, []⟩ t] at h
  rcases hrecorded : t.attempt now locker key mode wait (⟨s, []⟩ : Recorded σ L) with ⟨v, r, t₁⟩
  rw [hrecorded] at h
  obtain ⟨rfl, rfl, rfl⟩ := by simpa using h
  have hwounds : t.wounds now locker key mode wait s = r.wounds := by
    unfold wounds
    rw [hrecorded]
  obtain ⟨c', hc, rfl, rfl⟩ := attempt_eq hrecorded
  obtain ⟨ws, hasked, hblocked⟩ := @Contest.asked_attempt _ _ _ now t.parked locker mode
    ⟨(⟨s, []⟩ : Recorded σ L), t.entries key, []⟩ _ wait hage (hd.entries key)
  rw [hc] at hasked hblocked
  obtain rfl : c'.lockers.wounds = ws := hasked.record
  have hrequests : LockTable.requests
      { t.setEntries key c'.entries with notified := t.notified ++ c'.woken } key =
        c'.entries.map LockEntry.request :=
    (requests_setEntries t key c'.entries key).trans (if_pos rfl)
  rw [hwounds, hrequests]
  refine ⟨hasked.toAsked.request, fun w hw hgave n hn => ?_, fun holder hv => ?_⟩
  · exact isNotified_iff.mpr (List.mem_append_right _ (hasked.told w hw hgave n hn))
  · obtain ⟨e, he, howner, hne, hconflict, hcause⟩ := hblocked holder hv
    exact ⟨e.request, List.mem_map_of_mem he, howner, hne, hconflict, hcause⟩

/-! ### Turns and attempts that do not wait -/

theorem lockers_turn_eq (now deadline : Nat) (locker : L) (key : K) (mode : LockMode) (s : σ)
    (t : LockTable K L) :
    (t.turn now deadline locker key mode s).2.1 =
      if Lockers.isActive s locker then (t.attempt now locker key mode true s).2.1 else s := by
  rw [turn_eq]
  split
  · rcases t.attempt now locker key mode true s with ⟨_ | holder, s', t'⟩
    · rfl
    · simp only
      split <;> rfl
  · rfl

theorem lockers_tryLock_eq (now : Nat) (locker : L) (key : K) (mode : LockMode) (s : σ)
    (t : LockTable K L) :
    (t.tryLock now locker key mode s).2.1 =
      if Lockers.isActive s locker then (t.attempt now locker key mode false s).2.1 else s := by
  unfold tryLock
  split
  · rcases t.attempt now locker key mode false s with ⟨_ | holder, s', t'⟩ <;> rfl
  · rfl

/-- A turn comes to the same with a record as without. -/
theorem turn_forget (now deadline : Nat) (locker : L) (key : K) (mode : LockMode)
    (r : Recorded σ L) (t : LockTable K L) :
    t.turn now deadline locker key mode r.lockers =
      ((t.turn now deadline locker key mode r).1,
        (t.turn now deadline locker key mode r).2.1.lockers,
        (t.turn now deadline locker key mode r).2.2) := by
  have hactive : Lockers.isActive r locker = Lockers.isActive r.lockers locker := rfl
  rw [turn_eq, turn_eq, hactive, attempt_forget]
  split
  · rcases t.attempt now locker key mode true r with ⟨_ | holder, r', t'⟩
    · rfl
    · simp only
      split <;> rfl
  · rfl

theorem tryLock_forget (now : Nat) (locker : L) (key : K) (mode : LockMode) (r : Recorded σ L)
    (t : LockTable K L) :
    t.tryLock now locker key mode r.lockers =
      ((t.tryLock now locker key mode r).1, (t.tryLock now locker key mode r).2.1.lockers,
        (t.tryLock now locker key mode r).2.2) := by
  have hactive : Lockers.isActive r locker = Lockers.isActive r.lockers locker := rfl
  unfold tryLock
  rw [hactive, attempt_forget]
  split
  · rcases t.attempt now locker key mode false r with ⟨_ | holder, r', t'⟩ <;> rfl
  · rfl

/-- Those whom a turn of a call asks to give up, in order. -/
def turnWounds (now deadline : Nat) (locker : L) (key : K) (mode : LockMode) (s : σ)
    (t : LockTable K L) : List (Wound L) :=
  (t.turn now deadline locker key mode (⟨s, []⟩ : Recorded σ L)).2.1.wounds

theorem turnWounds_eq : t.turnWounds now deadline locker key mode s =
    if Lockers.isActive s locker then t.wounds now locker key mode true s else [] := by
  unfold turnWounds
  rw [lockers_turn_eq]
  show (if Lockers.isActive s locker = true then _ else _ : Recorded σ L).wounds = _
  split <;> rfl

theorem asked_turn (hage : Lockers.Ageless σ) (hd : t.Distinct) {answer : LockTurn L}
    (h : t.turn now deadline locker key mode s = (answer, s', t')) :
    LockEntry.Asked now (Lockers.rank s locker) locker mode (t.requests key)
        (t.turnWounds now deadline locker key mode s) (t'.requests key) ∧
      ∀ w ∈ t.turnWounds now deadline locker key mode s, w.gaveUp = true →
        ∀ n, t.parked.get? w.target = some n → t'.isNotified n = true := by
  have habandon : ∀ {t : LockTable K L}, t.Distinct → ∀ e, e.owner ≠ locker →
      (e ∈ (t.abandon locker key).requests key ↔ e ∈ t.requests key) := fun hd e hne =>
    (mem_requests_abandon hd).trans ⟨And.left, fun he => ⟨he, fun howner => absurd howner hne⟩⟩
  cases turn_outcome h with
  | inactive hinactive =>
      simp only [turnWounds_eq, hinactive, Bool.false_eq_true, if_false]
      exact ⟨.nil (habandon hd), fun w hw => absurd hw List.not_mem_nil⟩
  | @granted _ t₁ hactive hattempt =>
      obtain ⟨hasked, htold, -⟩ := asked_attempt hage hd hattempt
      simp only [turnWounds_eq, hactive, if_true]
      exact ⟨hasked, htold⟩
  | @timedOut _ t₁ holder hactive hattempt =>
      obtain ⟨hasked, htold, -⟩ := asked_attempt hage hd hattempt
      have hpark := fun key' => requests_park t₁ key locker holder key'
      have hd' : (t₁.park key locker holder).2.Distinct := by
        intro key'
        rw [hpark]
        exact distinct_attempt hd hattempt key'
      simp only [turnWounds_eq, hactive, if_true]
      refine ⟨?_, fun w hw hgave n hn => ?_⟩
      · refine List.append_nil (t.wounds now locker key mode true s) ▸ hasked.trans (.nil ?_)
        intro e hne
        rw [habandon hd' e hne, hpark]
      · exact (heard_abandon hd' locker key).told n (htold w hw hgave n hn)
  | @waiting _ t₁ holder hactive hattempt =>
      obtain ⟨hasked, htold, -⟩ := asked_attempt hage hd hattempt
      simp only [turnWounds_eq, hactive, if_true]
      rw [requests_park]
      exact ⟨hasked, htold⟩

/-- Whoever gives up in a turn is gone after it. -/
theorem gone_of_turnWounds {gone : σ → L → Prop} (hfinal : Lockers.Final gone) {answer : LockTurn L}
    (h : t.turn now deadline locker key mode s = (answer, s', t')) :
    ∀ w ∈ t.turnWounds now deadline locker key mode s, w.gaveUp = true → gone s' w.target := by
  have hs' : s' = (t.turn now deadline locker key mode (⟨s, []⟩ : Recorded σ L)).2.1.lockers := by
    rw [turn_forget now deadline locker key mode ⟨s, []⟩ t] at h
    exact (congrArg (·.2.1) h).symm
  rcases hturn : t.turn now deadline locker key mode (⟨s, []⟩ : Recorded σ L) with ⟨answer', r, t''⟩
  unfold turnWounds
  rw [hs', hturn]
  -- Every wound keeps it that all who have given up so far are gone.
  exact lockers_turn (R := fun r r' : Recorded σ L =>
      (∀ w ∈ r.wounds, w.gaveUp = true → gone r.lockers w.target) →
        ∀ w ∈ r'.wounds, w.gaveUp = true → gone r'.lockers w.target)
    (fun _ h => h) (fun _ _ _ h h' hr => h' (h hr))
    (fun r l reason _ hr w hw hgave => by
      rcases List.mem_append.mp hw with hin | hlast
      · exact hfinal.stays _ _ _ _ (hr w hin hgave)
      · obtain rfl := List.mem_singleton.mp hlast
        exact hfinal.wound _ _ _ hgave)
    hturn fun w hw => absurd hw List.not_mem_nil

/-! ### What a request does to others -/

/-- A request of a locker on a key leaves others what they have, except that a holder of the key may
lose it, and is then woken where it is parked. -/
structure Served (locker : L) (key : K) (t t' : LockTable K L) : Prop where
  told : ∀ n, t.isNotified n = true → t'.isNotified n = true
  others : ∀ e ∈ t'.requests key, e.owner ≠ locker → e ∈ t.requests key
  kept : ∀ e ∈ t.requests key, e.owner ≠ locker → e ∈ t'.requests key ∨
    e.granted = true ∧ ∀ n, t.parked.get? e.owner = some n → t'.isNotified n = true
  elsewhere : ∀ key', key ≠ key' → t'.requests key' = t.requests key'
  parked : ∀ l, l ≠ locker → t'.parked.get? l = t.parked.get? l

theorem served_attempt (hage : Lockers.Ageless σ) (hd : t.Distinct) {verdict : Verdict L}
    (h : t.attempt now locker key mode wait s = (verdict, s', t')) : Served locker key t t' where
  told := (heard_attempt hd h).told
  others := (attempt_spec .any hd h).others
  kept := by
    intro e he hne
    obtain ⟨hasked, htold, -⟩ := asked_attempt hage hd h
    by_cases hin : e ∈ t'.requests key
    · exact Or.inl hin
    · obtain ⟨w, hw, howner, hgave⟩ := hasked.exists_wound he hne hin
      have hgranted := ((attempt_spec .any hd h).kept e he hne).resolve_left hin
      exact Or.inr ⟨hgranted.1, fun n hn => htold w hw hgave n (howner ▸ hn)⟩
  elsewhere := fun key' hkey => requests_attempt_of_ne h hkey
  parked := by
    obtain ⟨c', -, -, rfl⟩ := attempt_eq h
    exact fun _ _ => rfl

theorem parked_abandon (t : LockTable K L) (locker : L) (key : K) :
    (t.abandon locker key).parked = t.parked.erase locker := by
  unfold abandon release
  simp only
  split
  · rfl
  · split
    · rfl
    · split <;> rfl

theorem served_turn (hage : Lockers.Ageless σ) (hd : t.Distinct) {answer : LockTurn L}
    (h : t.turn now deadline locker key mode s = (answer, s', t')) : Served locker key t t' where
  told := (heard_turn hd h).told
  others := (turn_spec .any hd h).others
  kept := by
    intro e he hne
    obtain ⟨hasked, htold⟩ := asked_turn hage hd h
    by_cases hin : e ∈ t'.requests key
    · exact Or.inl hin
    · obtain ⟨w, hw, howner, hgave⟩ := hasked.exists_wound he hne hin
      have hgranted := ((turn_spec .any hd h).kept e he hne).resolve_left hin
      exact Or.inr ⟨hgranted.1, fun n hn => htold w hw hgave n (howner ▸ hn)⟩
  elsewhere := fun key' hkey => requests_turn_of_ne h hkey
  parked := by
    intro l hl
    have hpark : ∀ {t₁ : LockTable K L} {holder : L},
        (t₁.park key locker holder).2.parked.get? l = t₁.parked.get? l := fun {t₁ holder} =>
      (FinMap.get?_insert t₁.parked locker _ l).trans (if_neg (Ne.symm hl))
    cases turn_outcome h with
    | inactive => rw [parked_abandon, FinMap.get?_erase, if_neg (Ne.symm hl)]
    | @granted _ t₁ _ hattempt =>
        rw [← (served_attempt hage hd hattempt).parked l hl]
        exact (FinMap.get?_erase t₁.parked locker l).trans (if_neg (Ne.symm hl))
    | timedOut _ hattempt =>
        rw [parked_abandon, FinMap.get?_erase, if_neg (Ne.symm hl), hpark]
        exact (served_attempt hage hd hattempt).parked l hl
    | waiting _ hattempt =>
        rw [hpark]
        exact (served_attempt hage hd hattempt).parked l hl

end LockTable

end ObjectStore
