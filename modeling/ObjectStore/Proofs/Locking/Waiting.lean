/-
What becomes of those who wait for a key.

A call that waits listens to one entry.  Whatever happens to that entry, the call is told: an entry
goes or changes only together with a notification of everyone who listens to it.  `LockTable.Heard`
says so of two tables, and every operation of a table stays within it.

`LockEntry.Bars` says why the entry was in the way when the call began to listen: it had precedence,
or its owner held the key and was asked in vain to give up.
-/
import ObjectStore.Proofs.Locking.Table

namespace ObjectStore

open LockEntry (Distinct)

/-! ### Precedence -/

namespace Rank

variable {a b c : Rank}

/-- Precedence goes by timestamp, then by tiebreaker, then by the locker's number. -/
theorem before_iff : a.before b = true ↔
    a.seniority.timestamp < b.seniority.timestamp ∨
      a.seniority.timestamp = b.seniority.timestamp ∧
        (a.seniority.tiebreaker < b.seniority.tiebreaker ∨
          a.seniority.tiebreaker = b.seniority.tiebreaker ∧ a.ordinal < b.ordinal) := by
  obtain ⟨⟨t, u⟩, n⟩ := a
  obtain ⟨⟨t', u'⟩, n'⟩ := b
  simp only [before, Seniority.olderThan, Seniority.mk.injEq, Bool.or_eq_true, Bool.and_eq_true,
    decide_eq_true_eq]
  omega

theorem before_irrefl (a : Rank) : a.before a = false := by
  have h := @before_iff a a
  simpa using h

theorem before_trans (h : a.before b = true) (h' : b.before c = true) : a.before c = true := by
  rw [before_iff] at *
  omega

/-- Nobody who does not precede `b` precedes those whom `b` does not precede. -/
theorem before_eq_false_trans (h : a.before b = false) (h' : b.before c = false) :
    a.before c = false := by
  rw [← Bool.not_eq_true, before_iff] at *
  omega

theorem before_asymm (h : a.before b = true) : b.before a = false := by
  rw [← Bool.not_eq_true]
  intro h'
  exact absurd (before_trans h h') (by simp [before_irrefl])

theorem before_total (hne : a ≠ b) (h : a.before b = false) : b.before a = true := by
  by_contra hno
  refine hne ?_
  have hab : ¬ a.before b = true := by simp [h]
  rw [before_iff] at hno hab
  obtain ⟨⟨t, u⟩, n⟩ := a
  obtain ⟨⟨t', u'⟩, n'⟩ := b
  simp only [Rank.mk.injEq, Seniority.mk.injEq] at hno hab ⊢
  omega

end Rank

/-! ### Being asked to give up -/

/-- No locker changes its rank when lockers are asked to give up. -/
def Lockers.Ageless (σ : Type) {L : Type} [Lockers σ L] : Prop :=
  ∀ (s : σ) (l : L) (reason : WoundReason L) (l' : L),
    Lockers.rank (Lockers.wound s l reason).2 l' = Lockers.rank s l'

/-- Whoever refuses to give up is `firm`, and nobody ceases to be so by being asked. -/
structure Lockers.Lasting {σ L : Type} [Lockers σ L] (firm : σ → L → Prop) : Prop where
  refuse : ∀ s l reason, (Lockers.wound s l reason).1 = false → firm (Lockers.wound s l reason).2 l
  stays : ∀ s l reason l', firm s l' → firm (Lockers.wound s l reason).2 l'

/-- Where nothing depends on who is firm, anybody may count as firm. -/
theorem Lockers.Lasting.any {σ L : Type} [Lockers σ L] :
    Lockers.Lasting fun (_ : σ) (_ : L) => True where
  refuse := fun _ _ _ _ => trivial
  stays := fun _ _ _ _ _ => trivial

namespace LockEntry

variable {L : Type}

/-- The entry is in the way of a request of a locker of this rank, and will not go for it: it has
precedence, or it is granted and its owner is firm. -/
structure Bars (rank : Rank) (firm : L → Prop) (locker : L) (mode : LockMode) (e : LockEntry L) :
    Prop where
  other : e.owner ≠ locker
  conflicts : mode.conflictsWith e.mode = true
  cause : e.rank.before rank = true ∨ e.granted = true ∧ firm e.owner

/-- Every entry shows the rank that its owner has. -/
def Ranked {σ : Type} [Lockers σ L] (s : σ) (es : List (LockEntry L)) : Prop :=
  ∀ e ∈ es, e.rank = Lockers.rank s e.owner

theorem mem_of_eldest {es : List (LockEntry L)} {e : LockEntry L} (h : eldest es = some e) :
    e ∈ es := by
  induction es generalizing e with
  | nil => exact absurd h (by simp [eldest])
  | cons x rest ih =>
      unfold eldest at h
      split at h
      · cases h
        exact List.mem_cons_self
      · rename_i other hother
        cases h
        split
        · exact List.mem_cons_of_mem x (ih hother)
        · exact List.mem_cons_self

theorem before_eldest {es : List (LockEntry L)} {e : LockEntry L} (h : eldest es = some e) :
    ∀ x ∈ es, x.rank.before e.rank = false := by
  induction es generalizing e with
  | nil => exact absurd h (by simp [eldest])
  | cons first rest ih =>
      intro x hx
      unfold eldest at h
      split at h
      · rename_i hrest
        cases h
        rw [eldest_eq_none_iff.mp hrest] at hx
        rw [List.mem_singleton.mp hx]
        exact Rank.before_irrefl _
      · rename_i other hother
        cases h
        rcases List.mem_cons.mp hx with rfl | hin
        · split
          · rename_i hbefore
            exact Rank.before_asymm hbefore
          · exact Rank.before_irrefl _
        · split
          · exact ih hother x hin
          · rename_i hbefore
            exact Rank.before_eq_false_trans (ih hother x hin) (Bool.of_not_eq_true hbefore)

end LockEntry

namespace Contest

variable {σ L : Type}

/-! ### What one attempt leaves to those who listen -/

/-- What is left of `c` in `c'` is as it was, whoever listened to what is not left is woken, and
nobody listens to what is new. -/
structure Heard (c c' : Contest σ L) : Prop where
  woken : ∀ n ∈ c.woken, n ∈ c'.woken
  kept : ∀ e ∈ c.entries, e ∈ c'.entries ∨ ∀ n ∈ e.listeners, n ∈ c'.woken
  old : ∀ e ∈ c'.entries, e ∈ c.entries ∨ e.listeners = []

namespace Heard

variable {c c' c'' : Contest σ L}

theorem refl (c : Contest σ L) : Heard c c where
  woken := fun _ hn => hn
  kept := fun _ he => Or.inl he
  old := fun _ he => Or.inl he

theorem trans (h : Heard c c') (h' : Heard c' c'') : Heard c c'' where
  woken := fun n hn => h'.woken n (h.woken n hn)
  kept := by
    intro e he
    rcases h.kept e he with hin | hwoken
    · exact h'.kept e hin
    · exact Or.inr fun n hn => h'.woken n (hwoken n hn)
  old := by
    intro e he
    rcases h'.old e he with hin | hnone
    · exact h.old e hin
    · exact Or.inr hnone

end Heard

variable [DecidableEq L] {c : Contest σ L} {locker : L} {mode : LockMode} {wait : Bool}

theorem heard_remove (hd : Distinct c.entries) (locker : L) : Heard c (c.remove locker) := by
  unfold remove
  cases hown : c.own locker with
  | none => exact .refl c
  | some own =>
      obtain ⟨hmem, howner⟩ := (own_eq_some_iff hd).mp hown
      refine ⟨fun n hn => List.mem_append_left _ hn, fun e he => ?_, fun e he => ?_⟩
      · by_cases hne : e.owner = locker
        · rw [hd.eq_of_owner he hmem (hne.trans howner.symm)]
          exact Or.inr fun n hn => List.mem_append_right _ hn
        · exact Or.inl (hd.mem_eraseP.mpr ⟨he, hne⟩)
      · exact Or.inl (hd.mem_eraseP.mp he).1

variable [Lockers σ L] {parked : FinMap L Signal} {reason : WoundReason L} {now : Nat}

theorem heard_oust (hd : Distinct c.entries) (holder : L) :
    Heard c (c.oust parked reason holder) := by
  unfold oust
  rcases Lockers.wound c.lockers holder reason with ⟨_ | _, lockers⟩
  · exact ⟨fun _ hn => hn, fun _ he => Or.inl he, fun _ he => Or.inl he⟩
  · have hremove : Heard { c with lockers } (Contest.remove { c with lockers } holder) :=
      @heard_remove _ _ _ { c with lockers } hd holder
    refine ⟨fun n hn => List.mem_append_left _ (hremove.woken n hn), fun e he => ?_, hremove.old⟩
    exact (hremove.kept e he).imp_right fun h n hn => List.mem_append_left _ (h n hn)

theorem heard_foldl_oust (holders : List L) :
    ∀ c : Contest σ L, Distinct c.entries →
      Heard c (holders.foldl (oust parked reason) c) := by
  induction holders with
  | nil => intro c _; exact .refl c
  | cons holder rest ih =>
      intro c hd
      exact (heard_oust hd holder).trans (ih _ (hd.sublist (entries_oust_sublist c holder)))

omit [DecidableEq L] in
theorem heard_push (granted : Bool) : Heard c (c.push locker mode granted) where
  woken := fun _ hn => hn
  kept := fun _ he => Or.inl (List.mem_append_left _ he)
  old := by
    intro e he
    refine (List.mem_append.mp he).imp_right fun hlast => ?_
    rw [List.mem_singleton.mp hlast]
    rfl

theorem heard_enqueue : Heard c (c.enqueue wait locker mode) := by
  unfold enqueue
  split
  · exact heard_push false
  · exact .refl c

/-- An entry that is raised has its listeners woken. -/
theorem heard_grant (hd : Distinct c.entries) : Heard c (c.grant locker mode) := by
  unfold grant
  cases hown : c.own locker with
  | none => exact heard_push true
  | some own =>
      obtain ⟨hmem, howner⟩ := (own_eq_some_iff hd).mp hown
      refine ⟨fun n hn => List.mem_append_left _ hn, fun e he => ?_, fun e he => ?_⟩
      · by_cases hne : e.owner = locker
        · rw [hd.eq_of_owner he hmem (hne.trans howner.symm)]
          exact Or.inr fun n hn => List.mem_append_right _ hn
        · exact Or.inl (List.mem_map.mpr ⟨e, he, if_neg hne⟩)
      · obtain ⟨x, hx, rfl⟩ := List.mem_map.mp he
        split
        · exact Or.inr rfl
        · exact Or.inl hx

theorem heard_attempt (hd : Distinct c.entries) :
    Heard c (c.attempt now parked locker mode wait).2 := by
  have hevict : Heard c (c.evictExpired now parked locker) := heard_foldl_oust _ c hd
  have hd' : Distinct (c.evictExpired now parked locker).entries :=
    hd.sublist (entries_foldl_oust_sublist _ c)
  have hwound : Heard c ((c.evictExpired now parked locker).woundRivals parked locker mode) :=
    hevict.trans (heard_foldl_oust _ _ hd')
  unfold attempt
  simp only
  split
  · exact hevict
  · split
    · exact hevict.trans heard_enqueue
    · split
      · exact hwound.trans heard_enqueue
      · exact hwound.trans (heard_grant (hd'.sublist (entries_foldl_oust_sublist _ _)))

/-! ### Why a request is blocked -/

variable {firm : σ → L → Prop} {c' : Contest σ L}

/-- Whoever was asked to give up and still has an entry has refused. -/
theorem firm_foldl_oust (hlasting : Lockers.Lasting firm) {e : LockEntry L} (holders : List L) :
    ∀ c : Contest σ L, Distinct c.entries → e.owner ∈ holders →
      e ∈ (holders.foldl (oust parked reason) c).entries →
        firm (holders.foldl (oust parked reason) c).lockers e.owner := by
  induction holders with
  | nil => intro c _ hasked; exact absurd hasked (by simp)
  | cons holder rest ih =>
      intro c hd hasked he
      have hd' : Distinct (c.oust parked reason holder).entries :=
        hd.sublist (entries_oust_sublist c holder)
      rcases List.mem_cons.mp hasked with howner | hrest
      · have hrefused : (Lockers.wound c.lockers holder reason).1 = false := by
          by_contra hgave
          have hin := (entries_foldl_oust_sublist rest _).subset he
          rw [entries_oust, if_pos (Bool.of_not_eq_false hgave)] at hin
          exact (hd.mem_eraseP.mp hin).2 howner
        have hfirm : firm (c.oust parked reason holder).lockers e.owner := by
          rw [lockers_oust, howner]
          exact hlasting.refuse _ _ _ hrefused
        exact lockers_foldl_oust (R := fun s s' => firm s e.owner → firm s' e.owner)
          (fun _ h => h) (fun _ _ _ h₁ h₂ h => h₂ (h₁ h)) rest
          (fun s l _ reason => hlasting.stays s l reason e.owner) _ hfirm
      · exact ih _ hd' hrest he

theorem mem_entries_enqueue {e : LockEntry L} (he : e ∈ c.entries) :
    e ∈ (c.enqueue wait locker mode).entries := by
  unfold enqueue
  split
  · exact List.mem_append_left _ he
  · exact he

/-- To be queued makes nobody a holder. -/
theorem mem_entries_of_granted (c : Contest σ L) {e : LockEntry L} (hgranted : e.granted = true)
    (he : e ∈ (c.enqueue wait locker mode).entries) : e ∈ c.entries := by
  unfold enqueue at he
  split at he
  · refine (List.mem_append.mp he).resolve_right fun hlast => ?_
    rw [List.mem_singleton.mp hlast] at hgranted
    exact absurd hgranted (by simp [LockEntry.ofRequest])
  · exact he

/-- An elder entry has precedence. -/
theorem bars_of_elder (firm : σ → L → Prop) {e : LockEntry L}
    (h : c.elder locker mode = some e) :
    e ∈ c.entries ∧ e.Bars (Lockers.rank c.lockers locker) (firm c.lockers) locker mode := by
  obtain ⟨hin, hcond⟩ := List.mem_filter.mp (LockEntry.mem_of_eldest h)
  simp only [LockEntry.rivals, Bool.and_eq_true, decide_eq_true_eq] at hcond
  exact ⟨hin, hcond.1.1, hcond.1.2, Or.inl hcond.2⟩

/-- The owner of a holdout was asked to give up and did not. -/
theorem bars_of_holdout (hlasting : Lockers.Lasting firm) (hd : Distinct c.entries)
    (hc : c' = c.woundRivals parked locker mode) {e : LockEntry L}
    (h : c'.holdout locker mode = some e) :
    e ∈ c'.entries ∧ e.Bars (Lockers.rank c'.lockers locker) (firm c'.lockers) locker mode := by
  obtain ⟨hin, hcond⟩ := List.mem_filter.mp (LockEntry.mem_of_eldest h)
  obtain ⟨hrivals, hgranted⟩ := Bool.and_eq_true_iff.mp hcond
  subst hc
  have hasked : e.owner ∈ (c.entries.filter fun e =>
      e.granted && e.rivals locker mode).map (·.owner) := by
    have hwas : e ∈ c.entries := (entries_foldl_oust_sublist _ c).subset hin
    exact List.mem_map_of_mem (List.mem_filter.mpr ⟨hwas, by simp [hgranted, hrivals]⟩)
  simp only [LockEntry.rivals, Bool.and_eq_true, decide_eq_true_eq] at hrivals
  exact ⟨hin, hrivals.1, hrivals.2, Or.inr ⟨hgranted, firm_foldl_oust hlasting _ c hd hasked hin⟩⟩

/-- **What blocks an attempt.**  The holder that is named has an entry that bars the request. -/
theorem attempt_blocked (hlasting : Lockers.Lasting firm) (hd : Distinct c.entries) {holder : L}
    (h : c.attempt now parked locker mode wait = (.blocked holder, c')) :
    ∃ e ∈ c'.entries, e.owner = holder ∧
      e.Bars (Lockers.rank c'.lockers locker) (firm c'.lockers) locker mode := by
  have hd' : Distinct (c.evictExpired now parked locker).entries :=
    hd.sublist (entries_foldl_oust_sublist _ c)
  unfold attempt at h
  simp only at h
  split at h
  · exact absurd h (by simp)
  · split at h
    · rename_i e helder
      obtain ⟨rfl, rfl⟩ := by simpa using h
      obtain ⟨hin, hbars⟩ := bars_of_elder firm helder
      rw [lockers_enqueue]
      exact ⟨e, mem_entries_enqueue hin, rfl, hbars⟩
    · split at h
      · rename_i e hholdout
        obtain ⟨rfl, rfl⟩ := by simpa using h
        obtain ⟨hin, hbars⟩ := bars_of_holdout hlasting hd' rfl hholdout
        rw [lockers_enqueue]
        exact ⟨e, mem_entries_enqueue hin, rfl, hbars⟩
      · exact absurd h (by simp)

/-! ### Entries show ranks -/

theorem rank_foldl_oust (hage : Lockers.Ageless σ) (holders : List L) (c : Contest σ L) (l : L) :
    Lockers.rank (holders.foldl (oust parked reason) c).lockers l = Lockers.rank c.lockers l :=
  lockers_foldl_oust (R := fun s s' => Lockers.rank s' l = Lockers.rank s l) (fun _ => rfl)
    (fun _ _ _ h h' => h'.trans h) holders (fun s l' _ reason => hage s l' reason l) c

theorem ranked_foldl_oust (hage : Lockers.Ageless σ) (h : LockEntry.Ranked c.lockers c.entries)
    (holders : List L) :
    LockEntry.Ranked (holders.foldl (oust parked reason) c).lockers
      (holders.foldl (oust parked reason) c).entries := by
  intro e he
  rw [rank_foldl_oust hage]
  exact h e ((entries_foldl_oust_sublist holders c).subset he)

omit [DecidableEq L] in
theorem ranked_push (h : LockEntry.Ranked c.lockers c.entries) (granted : Bool) :
    LockEntry.Ranked c.lockers (c.push locker mode granted).entries := by
  intro e he
  rcases List.mem_append.mp he with hin | hlast
  · exact h e hin
  · rw [List.mem_singleton.mp hlast]
    rfl

theorem ranked_enqueue (h : LockEntry.Ranked c.lockers c.entries) :
    LockEntry.Ranked (c.enqueue wait locker mode).lockers
      (c.enqueue wait locker mode).entries := by
  rw [lockers_enqueue]
  unfold enqueue
  split
  · exact ranked_push h false
  · exact h

theorem ranked_grant (hd : Distinct c.entries) (h : LockEntry.Ranked c.lockers c.entries) :
    LockEntry.Ranked (c.grant locker mode).lockers (c.grant locker mode).entries := by
  rw [lockers_grant]
  unfold grant
  cases hown : c.own locker with
  | none => exact ranked_push h true
  | some own =>
      obtain ⟨hmem, -⟩ := (own_eq_some_iff hd).mp hown
      intro e he
      obtain ⟨x, hx, rfl⟩ := List.mem_map.mp he
      split
      · exact h own hmem
      · exact h x hx

theorem ranked_attempt (hage : Lockers.Ageless σ) (hd : Distinct c.entries)
    (h : LockEntry.Ranked c.lockers c.entries) :
    LockEntry.Ranked (c.attempt now parked locker mode wait).2.lockers
      (c.attempt now parked locker mode wait).2.entries := by
  have hevict : LockEntry.Ranked (c.evictExpired now parked locker).lockers
      (c.evictExpired now parked locker).entries := ranked_foldl_oust hage h _
  have hwound : LockEntry.Ranked
      ((c.evictExpired now parked locker).woundRivals parked locker mode).lockers
      ((c.evictExpired now parked locker).woundRivals parked locker mode).entries :=
    ranked_foldl_oust hage hevict _
  unfold attempt
  simp only
  split
  · exact hevict
  · split
    · exact ranked_enqueue hevict
    · split
      · exact ranked_enqueue hwound
      · refine ranked_grant (hd.sublist ?_) hwound
        exact (entries_foldl_oust_sublist _ _).trans (entries_foldl_oust_sublist _ c)

end Contest

namespace LockTable

variable {K L σ : Type} [Hashable K] [DecidableEq K]

/-- The call that is parked on a signal listens to a request on the key. -/
def Listens (t : LockTable K L) (key : K) (signal : Signal) (e : LockEntry L) : Prop :=
  ∃ x ∈ t.entries key, x.request = e ∧ signal ∈ x.listeners

/-- Nobody listens on a signal that is still to be used. -/
def Fresh (t : LockTable K L) : Prop := ∀ key n e, t.Listens key n e → n < t.nextSignal

/-- Every request shows the rank that its locker has. -/
def Ranked [Lockers σ L] (s : σ) (t : LockTable K L) : Prop :=
  ∀ key, LockEntry.Ranked s (t.requests key)

/-- Whoever listened to a request still does or has been told, and whoever has begun to listen does
so on a new signal. -/
structure Heard (t t' : LockTable K L) : Prop where
  told : ∀ n, t.isNotified n = true → t'.isNotified n = true
  kept : ∀ key n e, t.Listens key n e → t'.Listens key n e ∨ t'.isNotified n = true
  old : ∀ key n e, t'.Listens key n e → t.Listens key n e ∨ t.nextSignal ≤ n ∧ n < t'.nextSignal
  next : t.nextSignal ≤ t'.nextSignal

namespace Heard

variable {t t' t'' : LockTable K L}

theorem refl (t : LockTable K L) : Heard t t where
  told := fun _ h => h
  kept := fun _ _ _ h => Or.inl h
  old := fun _ _ _ h => Or.inl h
  next := Nat.le_refl _

theorem trans (h : Heard t t') (h' : Heard t' t'') : Heard t t'' where
  told := fun n hn => h'.told n (h.told n hn)
  kept := by
    intro key n e he
    rcases h.kept key n e he with hin | htold
    · exact h'.kept key n e hin
    · exact Or.inr (h'.told n htold)
  old := by
    intro key n e he
    rcases h'.old key n e he with hin | ⟨hle, hlt⟩
    · exact (h.old key n e hin).imp_right fun hnew => ⟨hnew.1, Nat.lt_of_lt_of_le hnew.2 h'.next⟩
    · exact Or.inr ⟨Nat.le_trans h.next hle, hlt⟩
  next := Nat.le_trans h.next h'.next

/-- It is enough to look at the entries one by one, if no signal is used. -/
theorem of_entries (htold : ∀ n, t.isNotified n = true → t'.isNotified n = true)
    (hkept : ∀ key, ∀ e ∈ t.entries key,
      e ∈ t'.entries key ∨ ∀ n ∈ e.listeners, t'.isNotified n = true)
    (hold : ∀ key, ∀ e ∈ t'.entries key, e ∈ t.entries key ∨ e.listeners = [])
    (hnext : t'.nextSignal = t.nextSignal) : Heard t t' where
  told := htold
  kept := by
    rintro key n _ ⟨x, hx, rfl, hn⟩
    rcases hkept key x hx with hin | hwoken
    · exact Or.inl ⟨x, hin, rfl, hn⟩
    · exact Or.inr (hwoken n hn)
  old := by
    rintro key n _ ⟨x, hx, rfl, hn⟩
    rcases hold key x hx with hin | hnone
    · exact Or.inl ⟨x, hin, rfl, hn⟩
    · rw [hnone] at hn
      exact absurd hn List.not_mem_nil
  next := Nat.le_of_eq hnext.symm

theorem fresh (h : Heard t t') (hfresh : t.Fresh) : t'.Fresh := by
  intro key n e he
  rcases h.old key n e he with hin | hnew
  · exact Nat.lt_of_lt_of_le (hfresh key n e hin) h.next
  · exact hnew.2

/-- On a signal that was already in use nobody begins to listen. -/
theorem listens_of_lt (h : Heard t t') {key : K} {n : Signal} {e : LockEntry L}
    (hn : n < t.nextSignal) (he : t'.Listens key n e) : t.Listens key n e :=
  (h.old key n e he).resolve_right fun hnew => Nat.not_lt.mpr hnew.1 hn

end Heard

theorem fresh_ofShards (count : Nat) : (ofShards count : LockTable K L).Fresh := by
  rintro key n _ ⟨x, hx, -⟩
  rw [entries_ofShards] at hx
  exact absurd hx List.not_mem_nil

theorem ranked_ofShards [Lockers σ L] (s : σ) (count : Nat) :
    (ofShards count : LockTable K L).Ranked s := by
  intro key e he
  unfold requests at he
  rw [entries_ofShards] at he
  exact absurd he List.not_mem_nil

omit [Hashable K] [DecidableEq K] in
theorem isNotified_iff {t : LockTable K L} {n : Signal} : t.isNotified n = true ↔ n ∈ t.notified := by
  simp [isNotified]

variable [DecidableEq L] {t t' : LockTable K L} {key : K} {locker : L}

/-! ### Calls that take entries away -/

theorem heard_release (hd : t.Distinct) (locker : L) (key : K) :
    Heard t (t.release locker key).2 := by
  refine .of_entries ?_ ?_ ?_ ?_
  · intro n hn
    unfold release
    split
    · exact hn
    · exact isNotified_iff.mpr (List.mem_append_left _ (isNotified_iff.mp hn))
  · intro key' e he
    rw [entries_release]
    split
    · rename_i hkey
      subst hkey
      by_cases howner : e.owner = locker
      · have hfind := (hd.entries key).find?_eq_some_iff.mpr ⟨he, howner⟩
        refine Or.inr fun n hn => isNotified_iff.mpr ?_
        simp only [release, hfind]
        exact List.mem_append_right _ hn
      · exact Or.inl ((hd.entries key).mem_eraseP.mpr ⟨he, howner⟩)
    · exact Or.inl he
  · intro key' e he
    rw [entries_release] at he
    split at he
    · rename_i hkey
      subst hkey
      exact Or.inl (List.mem_of_mem_eraseP he)
    · exact Or.inl he
  · unfold release
    split <;> rfl

theorem heard_abandon (hd : t.Distinct) (locker : L) (key : K) : Heard t (t.abandon locker key) := by
  have hparked : Heard t { t with parked := t.parked.erase locker } :=
    ⟨fun _ h => h, fun _ _ _ h => Or.inl h, fun _ _ _ h => Or.inl h, Nat.le_refl _⟩
  unfold abandon
  simp only
  split
  · exact hparked
  · split
    · exact hparked
    · exact hparked.trans
        (heard_release (t := { t with parked := t.parked.erase locker }) hd locker key)

theorem heard_releaseAll (hd : t.Distinct) (locker : L) : Heard t (t.releaseAll locker) := by
  refine .of_entries ?_ ?_ ?_ rfl
  · intro n hn
    exact isNotified_iff.mpr (List.mem_append_left _ (isNotified_iff.mp hn))
  · intro key e he
    rw [entries_releaseAll]
    by_cases howner : e.owner = locker
    · refine Or.inr fun n hn => isNotified_iff.mpr (List.mem_append_right _ ?_)
      have hfind := (hd.entries key).find?_eq_some_iff.mpr ⟨he, howner⟩
      obtain ⟨shard, hget⟩ := t.exists_shard key
      have hentries : t.entries key = (shard.get? key).getD [] := by
        simp [entries, hget]
      cases hes : shard.get? key with
      | none =>
          rw [hentries, hes] at he
          exact absurd he List.not_mem_nil
      | some es =>
          have hpair : (key, es) ∈ shard.pairs := (shard.get?_eq_some_iff key es).mp hes
          refine List.mem_flatMap.mpr ⟨shard, List.mem_of_getElem? hget, ?_⟩
          refine List.mem_flatMap.mpr ⟨(key, es), hpair, ?_⟩
          have hsame : t.entries key = es := by rw [hentries, hes]; rfl
          rw [hsame] at hfind
          simp only [hfind]
          exact hn
    · exact Or.inl ((hd.entries key).mem_eraseP.mpr ⟨he, howner⟩)
  · intro key e he
    rw [entries_releaseAll] at he
    exact Or.inl (List.mem_of_mem_eraseP he)

/-- Requests are at most taken away, and whoever listened to them has been told. -/
structure Eased (t t' : LockTable K L) : Prop where
  heard : Heard t t'
  requests : ∀ key, (t'.requests key).Sublist (t.requests key)

omit [DecidableEq L] in
theorem Eased.refl (t : LockTable K L) : Eased t t := ⟨.refl t, fun _ => List.Sublist.refl _⟩

theorem eased_release (hd : t.Distinct) (locker : L) (key : K) :
    Eased t (t.release locker key).2 where
  heard := heard_release hd locker key
  requests := by
    intro key'
    rw [requests_release]
    split
    · rename_i hkey
      subst hkey
      exact List.eraseP_sublist
    · exact List.Sublist.refl _

theorem eased_releaseAll (hd : t.Distinct) (locker : L) : Eased t (t.releaseAll locker) where
  heard := heard_releaseAll hd locker
  requests := by
    intro key
    rw [requests_releaseAll]
    exact List.eraseP_sublist

/-! ### Calls that ask for a key -/

theorem listens_park {holder : L} {key' : K} {n : Signal} {e : LockEntry L} :
    (t.park key locker holder).2.Listens key' n e ↔
      t.Listens key' n e ∨
        key = key' ∧ n = t.nextSignal ∧ e ∈ t.requests key ∧ e.owner = holder := by
  have hentries : (t.park key locker holder).2.entries key' =
      if key = key' then
        (t.entries key).map fun e =>
          if e.owner = holder then { e with listeners := e.listeners ++ [t.nextSignal] } else e
      else t.entries key' := entries_listen t key holder t.nextSignal key'
  unfold Listens
  rw [hentries]
  constructor
  · rintro ⟨x, hx, rfl, hn⟩
    split at hx
    · rename_i hkey
      subst hkey
      obtain ⟨y, hy, rfl⟩ := List.mem_map.mp hx
      split at hn
      · rename_i howner
        rw [if_pos howner]
        rcases List.mem_append.mp hn with hold | hnew
        · exact Or.inl ⟨y, hy, rfl, hold⟩
        · exact Or.inr ⟨rfl, List.mem_singleton.mp hnew, List.mem_map.mpr ⟨y, hy, rfl⟩, howner⟩
      · rename_i howner
        rw [if_neg howner]
        exact Or.inl ⟨y, hy, rfl, hn⟩
    · exact Or.inl ⟨x, hx, rfl, hn⟩
  · rintro (⟨x, hx, rfl, hn⟩ | ⟨rfl, rfl, he, howner⟩)
    · split
      · rename_i hkey
        subst hkey
        refine ⟨_, List.mem_map_of_mem hx, ?_, ?_⟩
        · split <;> rfl
        · split
          · exact List.mem_append_left _ hn
          · exact hn
      · exact ⟨x, hx, rfl, hn⟩
    · obtain ⟨x, hx, rfl⟩ := List.mem_map.mp he
      rw [if_pos rfl]
      have hxowner : x.owner = holder := howner
      refine ⟨_, List.mem_map_of_mem hx, ?_, ?_⟩
      · rw [if_pos hxowner]
        rfl
      · rw [if_pos hxowner]
        exact List.mem_append_right _ (List.mem_singleton_self _)

theorem heard_park (holder : L) : Heard t (t.park key locker holder).2 where
  told := fun _ hn => hn
  kept := fun _ _ _ he => Or.inl (listens_park.mpr (Or.inl he))
  old := by
    intro key' n e he
    refine (listens_park.mp he).imp_right fun hnew => ?_
    rw [hnew.2.1]
    exact ⟨Nat.le_refl _, Nat.lt_succ_self _⟩
  next := Nat.le_succ _

variable [Lockers σ L] {now deadline : Nat} {mode : LockMode} {wait : Bool} {s s' : σ}

theorem heard_attempt (hd : t.Distinct) {verdict : Verdict L}
    (h : t.attempt now locker key mode wait s = (verdict, s', t')) : Heard t t' := by
  obtain ⟨c', hc, rfl, rfl⟩ := attempt_eq h
  have hheard := @Contest.heard_attempt _ _ _ ⟨s, t.entries key, []⟩ locker mode wait _ t.parked now
    (hd.entries key)
  rw [hc] at hheard
  have hentries : ∀ key', LockTable.entries
      { t.setEntries key c'.entries with notified := t.notified ++ c'.woken } key' =
        if key = key' then c'.entries else t.entries key' :=
    entries_setEntries t key c'.entries
  refine .of_entries ?_ ?_ ?_ rfl
  · intro n hn
    exact isNotified_iff.mpr (List.mem_append_left _ (isNotified_iff.mp hn))
  · intro key' e he
    rw [hentries]
    split
    · rename_i hkey
      subst hkey
      refine (hheard.kept e he).imp_right fun hwoken n hn => ?_
      exact isNotified_iff.mpr (List.mem_append_right _ (hwoken n hn))
    · exact Or.inl he
  · intro key' e he
    rw [hentries] at he
    split at he
    · rename_i hkey
      subst hkey
      exact hheard.old e he
    · exact Or.inl he

theorem distinct_attempt (hd : t.Distinct) {verdict : Verdict L}
    (h : t.attempt now locker key mode wait s = (verdict, s', t')) : t'.Distinct := by
  intro key'
  by_cases hkey : key = key'
  · subst hkey
    exact (attempt_spec .any hd h).distinct
  · rw [requests_attempt_of_ne h hkey]
    exact hd key'

theorem requests_attempt_self {verdict : Verdict L}
    (h : t.attempt now locker key mode wait s = (verdict, s', t')) :
    ∃ c', Contest.attempt now t.parked locker mode wait ⟨s, t.entries key, []⟩ = (verdict, c') ∧
      s' = c'.lockers ∧ t'.requests key = c'.entries.map LockEntry.request := by
  obtain ⟨c', hc, rfl, rfl⟩ := attempt_eq h
  exact ⟨c', hc, rfl, (requests_setEntries t key c'.entries key).trans (if_pos rfl)⟩

theorem rank_attempt (hage : Lockers.Ageless σ) {verdict : Verdict L}
    (h : t.attempt now locker key mode wait s = (verdict, s', t')) (l : L) :
    Lockers.rank s' l = Lockers.rank s l :=
  lockers_attempt (R := fun s s' => Lockers.rank s' l = Lockers.rank s l) (fun _ => rfl)
    (fun _ _ _ h h' => h'.trans h) (fun s l' reason _ => hage s l' reason l) h

theorem ranked_attempt (hage : Lockers.Ageless σ) (hd : t.Distinct) (hranked : t.Ranked s)
    {verdict : Verdict L}
    (h : t.attempt now locker key mode wait s = (verdict, s', t')) : t'.Ranked s' := by
  intro key' e he
  by_cases hkey : key = key'
  · subst hkey
    obtain ⟨c', hc, rfl, hrequests⟩ := requests_attempt_self h
    have hentries : LockEntry.Ranked c'.lockers c'.entries := by
      have hspec := @Contest.ranked_attempt _ _ _ ⟨s, t.entries key, []⟩ locker mode wait _ t.parked
        now hage (hd.entries key) (fun e he => hranked key e.request (List.mem_map_of_mem he))
      rwa [hc] at hspec
    rw [hrequests] at he
    obtain ⟨x, hx, rfl⟩ := List.mem_map.mp he
    exact hentries x hx
  · rw [requests_attempt_of_ne h hkey] at he
    exact (hranked key' e he).trans (rank_attempt hage h e.owner).symm

/-- What blocks an attempt bars the request. -/
theorem attempt_blocked {firm : σ → L → Prop} (hlasting : Lockers.Lasting firm) (hd : t.Distinct)
    {holder : L} (h : t.attempt now locker key mode wait s = (.blocked holder, s', t')) :
    ∃ e ∈ t'.requests key, e.owner = holder ∧
      e.Bars (Lockers.rank s' locker) (firm s') locker mode := by
  obtain ⟨c', hc, rfl, hrequests⟩ := requests_attempt_self h
  obtain ⟨e, he, howner, hbars⟩ := Contest.attempt_blocked hlasting (hd.entries key) hc
  rw [hrequests]
  exact ⟨e.request, List.mem_map_of_mem he, howner, hbars.other, hbars.conflicts, hbars.cause⟩

/-! ### One turn of a call -/

theorem heard_turn (hd : t.Distinct) {answer : LockTurn L}
    (h : t.turn now deadline locker key mode s = (answer, s', t')) : Heard t t' := by
  cases turn_outcome h with
  | inactive => exact heard_abandon hd locker key
  | granted _ hattempt =>
      have hheard := heard_attempt hd hattempt
      exact ⟨hheard.told, hheard.kept, hheard.old, hheard.next⟩
  | @timedOut _ t₁ holder _ hattempt =>
      have hpark : Heard t (t₁.park key locker holder).2 :=
        (heard_attempt hd hattempt).trans (heard_park holder)
      refine hpark.trans (heard_abandon ?_ locker key)
      intro key'
      rw [requests_park]
      exact distinct_attempt hd hattempt key'
  | @waiting _ t₁ holder _ hattempt =>
      exact (heard_attempt hd hattempt).trans (heard_park holder)

theorem rank_turn (hage : Lockers.Ageless σ) {answer : LockTurn L}
    (h : t.turn now deadline locker key mode s = (answer, s', t')) (l : L) :
    Lockers.rank s' l = Lockers.rank s l :=
  lockers_turn (R := fun s s' => Lockers.rank s' l = Lockers.rank s l) (fun _ => rfl)
    (fun _ _ _ h h' => h'.trans h) (fun s l' reason _ => hage s l' reason l) h

theorem ranked_turn (hage : Lockers.Ageless σ) (hd : t.Distinct) (hranked : t.Ranked s)
    {answer : LockTurn L}
    (h : t.turn now deadline locker key mode s = (answer, s', t')) : t'.Ranked s' := by
  have habandon : ∀ {s : σ} {t : LockTable K L}, t.Ranked s → (t.abandon locker key).Ranked s := by
    intro s t hranked key' e he
    by_cases hkey : key = key'
    · subst hkey
      exact hranked key e ((requests_abandon_sublist t locker key).subset he)
    · rw [requests_abandon_of_ne t locker hkey] at he
      exact hranked key' e he
  cases turn_outcome h with
  | inactive => exact habandon hranked
  | granted _ hattempt => exact fun key' => ranked_attempt hage hd hranked hattempt key'
  | @timedOut _ t₁ holder _ hattempt =>
      refine habandon fun key' => ?_
      rw [requests_park]
      exact ranked_attempt hage hd hranked hattempt key'
  | @waiting _ t₁ holder _ hattempt =>
      intro key'
      rw [requests_park]
      exact ranked_attempt hage hd hranked hattempt key'

/-- **A call that waits** listens on a new signal to one request, and that request bars its own. -/
theorem turn_waiting {firm : σ → L → Prop} (hlasting : Lockers.Lasting firm) (hd : t.Distinct)
    (hfresh : t.Fresh) {signal : Signal}
    (h : t.turn now deadline locker key mode s = (.waiting signal, s', t')) :
    t.nextSignal ≤ signal ∧ signal < t'.nextSignal ∧
      ∃ e, (∀ x, t'.Listens key signal x ↔ x = e) ∧
        e.Bars (Lockers.rank s' locker) (firm s') locker mode := by
  cases turn_outcome h with
  | @waiting _ t₁ holder _ hattempt =>
      have hheard := heard_attempt hd hattempt
      obtain ⟨e, he, howner, hbars⟩ := attempt_blocked hlasting hd hattempt
      refine ⟨hheard.next, Nat.lt_succ_self _, e, fun x => ?_, hbars⟩
      rw [listens_park]
      constructor
      · rintro (hx | ⟨-, -, hx, hxowner⟩)
        · exact absurd (hheard.fresh hfresh _ _ _ hx) (Nat.lt_irrefl _)
        · exact (distinct_attempt hd hattempt key).eq_of_owner hx he (hxowner.trans howner.symm)
      · rintro rfl
        exact Or.inr ⟨rfl, rfl, he, howner⟩

end LockTable

end ObjectStore
