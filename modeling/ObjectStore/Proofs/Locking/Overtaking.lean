/-
Who may be overtaken while it waits.

A locker that comes to hold a key has nobody of higher precedence in its way: no entry of another
locker that conflicts precedes its own.  A call that waits is not overtaken as long as the table
knows it by such an entry.  That it always does is the claim that fails: a holder that asks for a
stronger mode is blocked without being queued, and all that the table has of it is the weaker entry.

`LockSession.Lined` says what the table knows of each waiting call, and `overtaken_cases` which
waiting calls can be overtaken: a reader that waits to write, by other readers; one that was evicted
while it waited so; and one whose entry its own locker has released.
-/
import ObjectStore.Proofs.Locking.Justice

namespace ObjectStore

open LockEntry (Distinct)

namespace Contest

variable {σ L : Type} [DecidableEq L] [Lockers σ L] {c : Contest σ L} {now : Nat}
variable {parked : FinMap L Signal} {locker : L} {mode : LockMode} {wait : Bool}

/-- Whoever comes by an entry with which it holds the key has nobody of precedence in its way. -/
theorem attempt_clear (hage : Lockers.Ageless σ) {own : LockEntry L}
    (hown : own ∈ (c.attempt now parked locker mode wait).2.entries) (hgranted : own.granted = true) :
    own ∈ c.entries ∨ ∀ e ∈ (c.attempt now parked locker mode wait).2.entries, e.owner ≠ locker →
      mode.conflictsWith e.mode = true → e.rank.before (Lockers.rank c.lockers locker) = false := by
  have hevict : ∀ e ∈ (c.evictExpired now parked locker).entries, e ∈ c.entries :=
    fun e he => (entries_foldl_oust_sublist _ c).subset he
  have hwound : ∀ e ∈ ((c.evictExpired now parked locker).woundRivals parked locker mode).entries,
      e ∈ (c.evictExpired now parked locker).entries :=
    fun e he => (entries_foldl_oust_sublist _ _).subset he
  have hrank : Lockers.rank (c.evictExpired now parked locker).lockers locker =
      Lockers.rank c.lockers locker := rank_foldl_oust hage _ c locker
  unfold attempt at hown ⊢
  simp only at hown ⊢
  split
  · rename_i hholds
    rw [if_pos hholds] at hown
    exact Or.inl (hevict own hown)
  · rename_i hholds
    rw [if_neg hholds] at hown
    split
    · rename_i e helder
      simp only [helder] at hown
      exact Or.inl (hevict own (mem_entries_of_granted _ hgranted hown))
    · rename_i helder
      simp only [helder] at hown
      split
      · rename_i e hholdout
        simp only [hholdout] at hown
        exact Or.inl (hevict own (hwound own (mem_entries_of_granted _ hgranted hown)))
      · refine Or.inr fun e he hne hconflict => ?_
        rw [← hrank]
        refine before_eq_false_of_elder helder (hwound e ((mem_entries_grant_iff _ hne).mp he)) ?_
        simp [LockEntry.rivals, hne, hconflict]

theorem exists_own_enqueue (c : Contest σ L) :
    ∃ e ∈ (c.enqueue true locker mode).entries, e.owner = locker ∧
      (e ∈ c.entries ∨ e.granted = false) := by
  unfold enqueue
  cases hown : c.own locker with
  | none =>
      simp only [Option.isNone_none, Bool.and_self, if_true, push]
      exact ⟨_, List.mem_append_right _ (List.mem_singleton_self _), rfl, Or.inr rfl⟩
  | some e =>
      have hin : e ∈ c.entries := List.mem_of_find?_eq_some hown
      exact ⟨e, hin, by simpa using List.find?_some hown, Or.inl hin⟩

/-- An attempt that waits and is blocked: its locker did not hold the key strongly enough before,
and has the entry that it had, or one that is queued. -/
theorem attempt_waits (hd : Distinct c.entries)
    (hblocked : (c.attempt now parked locker mode true).1 ≠ .granted) :
    ¬ LockEntry.Holds locker mode c.entries ∧
      ∃ e ∈ (c.attempt now parked locker mode true).2.entries, e.owner = locker ∧
        (e ∈ c.entries ∨ e.granted = false) := by
  have hevict : Thinned (fun _ _ => True) locker c (c.evictExpired now parked locker) :=
    evictExpired_thinned .any hd
  have hd' := hd.sublist hevict.sublist
  have hqueue : ∀ c' : Contest σ L, (∀ e ∈ c'.entries, e ∈ c.entries) →
      ∃ e ∈ (c'.enqueue true locker mode).entries, e.owner = locker ∧
        (e ∈ c.entries ∨ e.granted = false) := by
    intro c' hsub
    obtain ⟨e, he, howner, hold⟩ := @exists_own_enqueue _ _ _ _ locker mode c'
    exact ⟨e, he, howner, hold.imp_left (hsub e)⟩
  unfold attempt at hblocked ⊢
  simp only at hblocked ⊢
  split at hblocked
  · exact absurd rfl hblocked
  · rename_i hweak
    constructor
    · rintro ⟨e, he, howner, hheld⟩
      exact hweak ((holds_iff hd').mpr ⟨e, hevict.mem_own he howner, howner, hheld⟩)
    · rw [if_neg hweak]
      split
      · exact hqueue _ fun e he => hevict.sublist.subset he
      · rename_i helder
        simp only [helder] at hblocked
        split
        · exact hqueue _ fun e he =>
            hevict.sublist.subset ((entries_foldl_oust_sublist _ _).subset he)
        · rename_i hholdout
          simp only [hholdout] at hblocked
          exact absurd rfl hblocked

end Contest

namespace LockTable

variable {K L σ : Type} [Hashable K] [DecidableEq K] [DecidableEq L] [Lockers σ L]
variable {t t' : LockTable K L} {s s' : σ} {now deadline : Nat} {locker : L} {key : K}
variable {mode : LockMode} {wait : Bool}

theorem attempt_clear (hage : Lockers.Ageless σ) {verdict : Verdict L}
    (h : t.attempt now locker key mode wait s = (verdict, s', t')) {own : LockEntry L}
    (hown : own ∈ t'.requests key) (hgranted : own.granted = true) :
    own ∈ t.requests key ∨ ∀ e ∈ t'.requests key, e.owner ≠ locker →
      mode.conflictsWith e.mode = true → e.rank.before (Lockers.rank s locker) = false := by
  obtain ⟨c', hc, -, hrequests⟩ := requests_attempt_self h
  rw [hrequests] at hown ⊢
  obtain ⟨x, hx, rfl⟩ := List.mem_map.mp hown
  have hclear := @Contest.attempt_clear _ _ _ _ ⟨s, t.entries key, []⟩ now t.parked locker mode wait
    hage x
  rw [hc] at hclear
  rcases hclear hx hgranted with hold | hclear
  · exact Or.inl (List.mem_map_of_mem hold)
  · refine Or.inr fun e he hne hconflict => ?_
    obtain ⟨y, hy, rfl⟩ := List.mem_map.mp he
    exact hclear y hy hne hconflict

/-- One turn of a call lets nobody past who has precedence, either. -/
theorem turn_clear (hage : Lockers.Ageless σ) {answer : LockTurn L}
    (h : t.turn now deadline locker key mode s = (answer, s', t')) {own : LockEntry L}
    (hown : own ∈ t'.requests key) (hgranted : own.granted = true) :
    own ∈ t.requests key ∨ ∀ e ∈ t'.requests key, e.owner ≠ locker →
      mode.conflictsWith e.mode = true → e.rank.before (Lockers.rank s locker) = false := by
  cases turn_outcome h with
  | inactive => exact Or.inl ((requests_abandon_sublist t locker key).subset hown)
  | granted _ hattempt => exact attempt_clear hage hattempt hown hgranted
  | @timedOut _ t₁ holder _ hattempt =>
      have hsub : ∀ e ∈ ((t₁.park key locker holder).2.abandon locker key).requests key,
          e ∈ t₁.requests key := by
        intro e he
        rw [← requests_park t₁ key locker holder]
        exact (requests_abandon_sublist _ locker key).subset he
      exact (attempt_clear hage hattempt (hsub own hown) hgranted).imp_right
        fun hclear e he => hclear e (hsub e he)
  | @waiting _ t₁ holder _ hattempt =>
      rw [requests_park] at hown ⊢
      exact attempt_clear hage hattempt hown hgranted

/-- What the table knows of a call that waits: its request is queued, or its locker reads the key
and waits to write it, or its locker has lost the key it read and the call has been told. -/
inductive Placed (t : LockTable K L) (c : LockCall K L) : Prop where
  | queued (e : LockEntry L) (he : e ∈ t.requests c.key) (howner : e.owner = c.locker)
    (hqueued : e.granted = false) (hmode : e.mode = c.mode)
  | reading (e : LockEntry L) (he : e ∈ t.requests c.key) (howner : e.owner = c.locker)
    (hgranted : e.granted = true) (hread : e.mode = .read) (hwrite : c.mode = .write)
  | lost (hnone : ∀ e ∈ t.requests c.key, e.owner ≠ c.locker)
    (htold : t.isNotified c.signal = true) (hwrite : c.mode = .write)

theorem placed_turn (hd : t.Distinct) {signal : Signal}
    (h : t.turn now deadline locker key mode s = (.waiting signal, s', t'))
    (hqueued : ∀ e ∈ t.requests key, e.owner = locker → e.granted = false → e.mode = mode) :
    t'.parked.get? locker = some signal ∧
      t'.Placed ⟨locker, key, mode, deadline, signal⟩ := by
  cases turn_outcome h with
  | @waiting _ t₁ holder _ hattempt =>
      have hspec := attempt_spec .any hd hattempt
      obtain ⟨c', hc, -, hrequests⟩ := requests_attempt_self hattempt
      have hwaits := @Contest.attempt_waits _ _ _ _ ⟨s, t.entries key, []⟩ now t.parked locker mode
        (hd.entries key)
      rw [hc] at hwaits
      obtain ⟨hweak, x, hx, howner, hold⟩ := hwaits (by simp)
      have hin : x.request ∈ t₁.requests key := by
        rw [hrequests]
        exact List.mem_map_of_mem hx
      have hin' : x.request ∈ (t₁.park key locker holder).2.requests key := by
        rwa [requests_park]
      refine ⟨FinMap.get?_insert_self _ _ _, ?_⟩
      by_cases hgranted : x.granted = true
      · -- Whatever the locker holds it has held before, and not strongly enough.
        have hmode : x.mode.max mode ≠ x.mode := fun hmode =>
          hweak ⟨x, hold.resolve_right (by simp [hgranted]), howner, hgranted, hmode⟩
        have hmodes : x.mode = .read ∧ mode = .write := by
          revert hmode
          cases x.mode <;> cases mode <;> simp [LockMode.max]
        exact .reading x.request hin' howner hgranted hmodes.1 hmodes.2
      · have hqueue : x.granted = false := Bool.of_not_eq_true hgranted
        refine .queued x.request hin' howner hqueue ?_
        rcases (hspec.queued _ hin howner hqueue).2 with hold | ⟨-, hmode⟩
        · exact hqueued _ hold howner hqueue
        · exact hmode

omit [DecidableEq L] in
theorem Placed.congr {c : LockCall K L} (h : t.Placed c)
    (hsame : ∀ e, e.owner = c.locker → (e ∈ t'.requests c.key ↔ e ∈ t.requests c.key))
    (htold : ∀ n, t.isNotified n = true → t'.isNotified n = true) : t'.Placed c := by
  cases h with
  | queued e he howner hqueued hmode =>
      exact .queued e ((hsame e howner).mpr he) howner hqueued hmode
  | reading e he howner hgranted hread hwrite =>
      exact .reading e ((hsame e howner).mpr he) howner hgranted hread hwrite
  | lost hnone htold' hwrite =>
      exact .lost (fun e he howner => hnone e ((hsame e howner).mp he) howner) (htold _ htold') hwrite

/-- A request of another locker takes a call's place only by telling it. -/
theorem Placed.served (hd : t.Distinct) {c : LockCall K L} (h : t.Placed c)
    (hserved : Served locker key t t') (hne : c.locker ≠ locker)
    (hparked : t.parked.get? c.locker = some c.signal) : t'.Placed c := by
  by_cases hkey : key = c.key
  · subst hkey
    cases h with
    | queued e he howner hqueued hmode =>
        have hkept := (hserved.kept e he (howner ▸ hne)).resolve_right fun hlost => by
          rw [hqueued] at hlost
          exact absurd hlost.1 (by simp)
        exact .queued e hkept howner hqueued hmode
    | reading e he howner hgranted hread hwrite =>
        by_cases hin : e ∈ t'.requests c.key
        · exact .reading e hin howner hgranted hread hwrite
        · have htold := ((hserved.kept e he (howner ▸ hne)).resolve_left hin).2
          refine .lost (fun x hx hxowner => hin ?_) (htold _ (howner ▸ hparked)) hwrite
          rwa [← (hd c.key).eq_of_owner (hserved.others x hx (hxowner ▸ hne)) he
            (hxowner.trans howner.symm)]
    | lost hnone htold hwrite =>
        refine .lost (fun e he howner => ?_) (hserved.told _ htold) hwrite
        exact hnone e (hserved.others e he (howner ▸ hne)) howner
  · exact h.congr (fun e _ => by rw [hserved.elsewhere c.key hkey]) hserved.told

end LockTable

/-- The action takes away what its locker has on the key that a call waits for. -/
def LockAction.Withdraws {K L σ : Type} (c : LockCall K L) : LockAction K L σ → Prop
  | .release locker key => locker = c.locker ∧ key = c.key
  | .releaseAll locker => locker = c.locker
  | _ => False

namespace LockSession

variable {K L σ : Type} [DecidableEq K] [Hashable K] [DecidableEq L] [Lockers σ L]

/-- No locker begins to ask for a key while a call of its own waits. -/
def OneAtATime (s : LockSession K L σ) (actions : List (LockAction K L σ)) : Prop :=
  ∀ before b, before ++ [b] <+: actions → ∀ l, b.asker? = some l →
    ∀ call c, (s.run before).waiting.get? call = some c → c.locker ≠ l

/-- While the call waited, its locker has released the key. -/
def Withdrawn (s : LockSession K L σ) (actions : List (LockAction K L σ)) (call : Nat)
    (c : LockCall K L) : Prop :=
  ∃ before b, before ++ [b] <+: actions ∧ b.Withdraws c ∧ (s.run before).waiting.get? call = some c

/-- No locker has two calls that wait, and whoever is queued has one.  Every call that waits is
parked where the table looks for its locker, and has a place, unless it has been withdrawn. -/
structure Lined (withdrawn : Nat → LockCall K L → Prop) (s : LockSession K L σ) : Prop where
  single : ∀ call c call' c', s.waiting.get? call = some c → s.waiting.get? call' = some c' →
    c.locker = c'.locker → call = call'
  queued : ∀ key, ∀ e ∈ s.table.requests key, e.granted = false →
    ∃ call c, s.waiting.get? call = some c ∧ c.locker = e.owner ∧ c.key = key ∧ c.mode = e.mode
  placed : ∀ call c, s.waiting.get? call = some c → withdrawn call c ∨
    s.table.parked.get? c.locker = some c.signal ∧ s.table.Placed c

variable {s s' : LockSession K L σ} {withdrawn withdrawn' : Nat → LockCall K L → Prop}
variable {a : LockAction K L σ} {locker : L} {key : K} {mode : LockMode}

omit [Lockers σ L] in
/-- The same calls wait and nobody comes to be queued: who loses a place has been withdrawn. -/
theorem Lined.frame (h : s.Lined withdrawn) (hwaiting : s'.waiting = s.waiting)
    (hrequests : ∀ key, ∀ e ∈ s'.table.requests key, e.granted = false → e ∈ s.table.requests key)
    (hmono : ∀ call c, withdrawn call c → withdrawn' call c)
    (hplaced : ∀ call c, s.waiting.get? call = some c → withdrawn' call c ∨
      s'.table.parked.get? c.locker = s.table.parked.get? c.locker ∧
        (s.table.parked.get? c.locker = some c.signal → s.table.Placed c → s'.table.Placed c)) :
    s'.Lined withdrawn' where
  single := by
    rw [hwaiting]
    exact h.single
  queued := by
    rw [hwaiting]
    exact fun key e he hqueue => h.queued key e (hrequests key e he hqueue) hqueue
  placed := by
    rw [hwaiting]
    intro call c hc
    rcases hplaced call c hc with hw | ⟨hparked, hkept⟩
    · exact Or.inl hw
    · rw [hparked]
      exact (h.placed call c hc).imp (hmono call c) fun ⟨hsignal, hplace⟩ =>
        ⟨hsignal, hkept hsignal hplace⟩

omit [Lockers σ L] in
theorem Lined.mono (h : s.Lined withdrawn) (htable : s'.table = s.table)
    (hwaiting : s'.waiting = s.waiting) (hmono : ∀ call c, withdrawn call c → withdrawn' call c) :
    s'.Lined withdrawn' := by
  refine h.frame hwaiting ?_ hmono fun call c _ => Or.inr ?_
  · rw [htable]
    exact fun _ _ he _ => he
  · rw [htable]
    exact ⟨rfl, fun _ hplace => hplace⟩

theorem Lined.takeTurn (hage : Lockers.Ageless σ) (hd : s.table.Distinct) (h : s.Lined withdrawn)
    {call : Nat} {deadline : Nat}
    (hsame : ∀ call' c, s.waiting.get? call' = some c → (c.locker = locker → call' = call) ∧
      (call' = call → c.locker = locker ∧ c.key = key ∧ c.mode = mode)) :
    (s.takeTurn call locker key mode deadline).2.Lined withdrawn := by
  rcases hturn : s.table.turn s.now deadline locker key mode s.lockers with ⟨turn, lockers, table⟩
  obtain ⟨waiting, heq, hwaiting⟩ := takeTurn_eq call hturn
  have hserved := LockTable.served_turn hage hd hturn
  have hspec := LockTable.turn_spec .any hd hturn
  have hmode : ∀ e ∈ s.table.requests key, e.owner = locker → e.granted = false → e.mode = mode := by
    intro e he howner hqueue
    obtain ⟨call', c, hc, hlocker, -, hmode⟩ := h.queued key e he hqueue
    have hcall := (hsame call' c hc).1 (hlocker.trans howner)
    exact hmode.symm.trans ((hsame call' c hc).2 hcall).2.2
  have hother : ∀ {call' c}, call ≠ call' → s.waiting.get? call' = some c → c.locker ≠ locker :=
    fun hne hc howner => hne ((hsame _ _ hc).1 howner).symm
  rw [heq]
  refine ⟨fun call₁ c₁ call₂ c₂ hc₁ hc₂ hlocker => ?_, fun key' e he hqueue => ?_,
    fun call' c hc => ?_⟩
  · rcases (hwaiting call₁ c₁).mp hc₁ with ⟨hne₁, hold₁⟩ | ⟨rfl, signal, -, rfl⟩
    · rcases (hwaiting call₂ c₂).mp hc₂ with ⟨hne₂, hold₂⟩ | ⟨rfl, signal, -, rfl⟩
      · exact h.single call₁ c₁ call₂ c₂ hold₁ hold₂ hlocker
      · exact absurd hlocker (hother hne₁ hold₁)
    · rcases (hwaiting call₂ c₂).mp hc₂ with ⟨hne₂, hold₂⟩ | ⟨rfl, -⟩
      · exact absurd hlocker.symm (hother hne₂ hold₂)
      · rfl
  · -- Who was queued before has a call that waits, which is not the one that has taken the turn.
    have hold : e ∈ s.table.requests key' → (key = key' → e.owner ≠ locker) →
        ∃ call' c, waiting.get? call' = some c ∧ c.locker = e.owner ∧ c.key = key' ∧
          c.mode = e.mode := by
      intro hin hne
      obtain ⟨call', c, hc, howner, hkey, hmode'⟩ := h.queued key' e hin hqueue
      refine ⟨call', c, (hwaiting call' c).mpr (Or.inl ⟨fun hcall => ?_, hc⟩), howner, hkey, hmode'⟩
      obtain ⟨hlocker, hkey', -⟩ := (hsame call' c hc).2 hcall.symm
      exact hne (hkey'.symm.trans hkey) (howner.symm.trans hlocker)
    by_cases hkey : key = key'
    · subst hkey
      by_cases howner : e.owner = locker
      · obtain ⟨⟨signal, hwaits⟩, hcases⟩ := hspec.queued e he howner hqueue
        refine ⟨call, _, (hwaiting call _).mpr (Or.inr ⟨rfl, signal, hwaits, rfl⟩), howner.symm, rfl, ?_⟩
        rcases hcases with hin | hnew
        · exact (hmode e hin howner hqueue).symm
        · exact hnew.symm
      · exact hold (hspec.others e he howner) fun _ => howner
    · refine hold ?_ fun hc => absurd hc hkey
      rw [← hserved.elsewhere key' hkey]
      exact he
  · rcases (hwaiting call' c).mp hc with ⟨hne, hold⟩ | ⟨rfl, signal, rfl, rfl⟩
    · refine (h.placed call' c hold).imp_right fun ⟨hparked, hplaced⟩ => ?_
      have hlocker := hother hne hold
      exact ⟨(hserved.parked c.locker hlocker).trans hparked,
        hplaced.served hd hserved hlocker hparked⟩
    · exact Or.inr (LockTable.placed_turn hd hturn hmode)

theorem Lined.tryLock (hage : Lockers.Ageless σ) (hd : s.table.Distinct) (h : s.Lined withdrawn)
    (hfree : ∀ call c, s.waiting.get? call = some c → c.locker ≠ locker)
    (hmono : ∀ call c, withdrawn call c → withdrawn' call c) :
    (s.tryLock locker key mode).2.Lined withdrawn' := by
  rcases htry : s.table.tryLock s.now locker key mode s.lockers with ⟨answer, lockers, table⟩
  rw [tryLock_eq htry]
  rcases LockTable.tryLock_cases htry with ⟨rfl, rfl⟩ | ⟨verdict, hattempt⟩
  · exact h.mono rfl rfl hmono
  · have hserved := LockTable.served_attempt hage hd hattempt
    refine h.frame rfl (fun key' e he hqueue => ?_) hmono fun call c hc => Or.inr ?_
    · by_cases hkey : key = key'
      · subst hkey
        by_cases howner : e.owner = locker
        · refine (((LockTable.attempt_spec .any hd hattempt).queued e he howner
            hqueue).2).resolve_right fun hwait => absurd hwait.1 (by simp)
        · exact hserved.others e he howner
      · rw [← hserved.elsewhere key' hkey]
        exact he
    · have hlocker := hfree call c hc
      exact ⟨hserved.parked c.locker hlocker,
        fun hparked hplace => hplace.served hd hserved hlocker hparked⟩

omit [Lockers σ L] in
/-- Some entries go.  The calls of those who keep theirs keep their places. -/
theorem Lined.eased (h : s.Lined withdrawn) {table : LockTable K L}
    (heased : LockTable.Eased s.table table)
    (hmono : ∀ call c, withdrawn call c → withdrawn' call c)
    (hkept : ∀ call c, s.waiting.get? call = some c → withdrawn' call c ∨
      table.parked.get? c.locker = s.table.parked.get? c.locker ∧
        ∀ e, e.owner = c.locker → e ∈ s.table.requests c.key → e ∈ table.requests c.key) :
    Lined withdrawn' { s with table } := by
  refine h.frame rfl (fun key e he _ => (heased.requests key).subset he) hmono fun call c hc => ?_
  refine (hkept call c hc).imp_right fun h' => ⟨h'.1, fun _ hplace => ?_⟩
  exact hplace.congr (fun e howner => ⟨fun he => (heased.requests c.key).subset he,
    h'.2 e howner⟩) heased.heard.told

/-- **Every action leaves the calls that wait their places**, or withdraws them. -/
theorem Lined.perform (hage : Lockers.Ageless σ) (hd : s.table.Distinct) (h : s.Lined withdrawn)
    (hfree : ∀ l, a.asker? = some l → ∀ call c, s.waiting.get? call = some c → c.locker ≠ l)
    (hmono : ∀ call c, withdrawn call c → withdrawn' call c)
    (hnew : ∀ call c, s.waiting.get? call = some c → a.Withdraws c → withdrawn' call c) :
    (s.perform a).Lined withdrawn' := by
  have hperformed := performed s a
  generalize s.perform a = s' at hperformed
  cases hperformed with
  | busy => exact h.mono rfl rfl hmono
  | early => exact h.mono rfl rfl hmono
  | changed => exact h.mono rfl rfl hmono
  | ticked => exact h.mono rfl rfl hmono
  | @begun call locker key mode hidle =>
      refine (h.takeTurn hage hd fun call' c hc => ⟨fun hlocker => ?_, fun hcall => ?_⟩).mono rfl rfl
        hmono
      · exact absurd hlocker (hfree locker rfl call' c hc)
      · rw [hcall, hidle] at hc
        exact absurd hc (by simp)
  | @resumed call c hdue hwaits =>
      refine (h.takeTurn hage hd fun call' c' hc' => ⟨fun hlocker => ?_, fun hcall => ?_⟩).mono rfl rfl
        hmono
      · exact h.single call' c' call c hc' hwaits hlocker
      · rw [hcall, hwaits] at hc'
        cases hc'
        exact ⟨rfl, rfl, rfl⟩
  | tried => exact h.tryLock hage hd (hfree _ rfl) hmono
  | @released locker key =>
      refine h.eased (LockTable.eased_release hd locker key) hmono fun call c hc => ?_
      by_cases hmine : locker = c.locker ∧ key = c.key
      · exact Or.inl (hnew call c hc hmine)
      · refine Or.inr ⟨?_, fun e howner he => ?_⟩
        · show (s.table.release locker key).2.parked.get? c.locker = _
          unfold LockTable.release
          split <;> rfl
        · show e ∈ (s.table.release locker key).2.requests c.key
          rw [LockTable.requests_release]
          split
          · rename_i hkey
            refine (hd key).mem_eraseP.mpr ⟨hkey ▸ he, fun hc => hmine ⟨hc.symm.trans howner, hkey⟩⟩
          · exact he
  | @releasedAll locker =>
      refine h.eased (LockTable.eased_releaseAll hd locker) hmono fun call c hc => ?_
      by_cases hmine : locker = c.locker
      · exact Or.inl (hnew call c hc hmine)
      · refine Or.inr ⟨(FinMap.get?_erase _ locker c.locker).trans (if_neg hmine), fun e howner he => ?_⟩
        rw [LockTable.requests_releaseAll]
        exact (hd c.key).mem_eraseP.mpr ⟨he, fun hc => hmine (hc.symm.trans howner)⟩

/-- In every run of one call at a time the calls that wait have their places. -/
theorem lined_run (hage : Lockers.Ageless σ) (now : Nat) (lockers : σ) (shards : Nat)
    {actions : List (LockAction K L σ)} (hone : OneAtATime (new now lockers shards) actions) :
    ((new now lockers shards).run actions).Lined (Withdrawn (new now lockers shards) actions) := by
  -- By induction on the length of the run, from its last action.
  induction actions using List.reverseRecOn with
  | nil =>
      refine ⟨fun _ _ _ _ hc => absurd hc (by simp [run, new]), fun key e he => ?_,
        fun _ _ hc => absurd hc (by simp [run, new])⟩
      have hnone : e ∈ (new now lockers shards : LockSession K L σ).table.requests key := he
      rw [requests_new] at hnone
      exact absurd hnone List.not_mem_nil
  | append_singleton before a ih =>
      have hlast : before ++ [a] <+: before ++ [a] := List.prefix_refl _
      have hearlier : ∀ {l}, l <+: before → l <+: before ++ [a] :=
        fun hl => hl.trans (List.prefix_append _ _)
      rw [run_concat]
      refine (ih fun b c hprefix => hone b c (hearlier hprefix)).perform hage
        (distinct_run (LockTable.distinct_ofShards shards) before) (hone before a hlast) ?_
        fun call c hc hwithdraws => ⟨before, a, hlast, hwithdraws, hc⟩
      rintro call c ⟨b, b', hprefix, h⟩
      exact ⟨b, b', hearlier hprefix, h⟩

/-- An action lets nobody past who has precedence and an entry in its way. -/
theorem perform_clear (hage : Lockers.Ageless σ) (h : s.asks a = some (locker, key, mode))
    {own : LockEntry L} (hown : own ∈ (s.perform a).table.requests key)
    (hgranted : own.granted = true) :
    own ∈ s.table.requests key ∨ ∀ e ∈ (s.perform a).table.requests key, e.owner ≠ locker →
      mode.conflictsWith e.mode = true →
        e.rank.before (Lockers.rank s.lockers locker) = false := by
  rcases asks_cases h with ⟨call, deadline, -, hperform, -⟩ | rfl
  · rcases hturn : s.table.turn s.now deadline locker key mode s.lockers with ⟨turn, s', t'⟩
    obtain ⟨waiting, heq, -⟩ := takeTurn_eq call hturn
    rw [hperform, heq] at hown ⊢
    exact LockTable.turn_clear hage hturn hown hgranted
  · rcases htry : s.table.tryLock s.now locker key mode s.lockers with ⟨answer, s', t'⟩
    have heq : s.perform (.tryLock locker key mode) = { s with lockers := s', table := t' } :=
      tryLock_eq htry
    rw [heq] at hown ⊢
    rcases LockTable.tryLock_cases htry with ⟨rfl, rfl⟩ | ⟨verdict, hattempt⟩
    · exact Or.inl hown
    · exact LockTable.attempt_clear hage hattempt hown hgranted

omit [Lockers σ L] in
theorem Lined.mode_of_asks (h : s.Lined withdrawn)
    (hfree : ∀ l, a.asker? = some l → ∀ call c, s.waiting.get? call = some c → c.locker ≠ l)
    (hasks : s.asks a = some (locker, key, mode)) {e : LockEntry L}
    (he : e ∈ s.table.requests key) (howner : e.owner = locker) (hqueued : e.granted = false) :
    e.mode = mode := by
  obtain ⟨call, c, hc, hlocker, -, hmode⟩ := h.queued key e he hqueued
  cases a with
  | lock call' l key' mode' =>
      simp only [asks] at hasks
      split at hasks
      · exact absurd hasks (by simp)
      · cases hasks
        exact absurd (hlocker.trans howner) (hfree locker rfl call c hc)
  | resume call' =>
      obtain ⟨c', hdue, hc'⟩ := Option.map_eq_some_iff.mp hasks
      cases hc'
      have hwaits := (Option.filter_eq_some_iff.mp hdue).1
      obtain rfl := h.single call c call' c' hc hwaits (hlocker.trans howner)
      rw [hwaits] at hc
      cases hc
      exact hmode.symm
  | tryLock l key' mode' =>
      cases hasks
      exact absurd (hlocker.trans howner) (hfree locker rfl call c hc)
  | _ => exact absurd hasks (by simp [asks])

/-- Whoever comes to hold a key in some mode has asked for that mode, and nobody who has precedence
has an entry that conflicts. -/
theorem Lined.clear (hage : Lockers.Ageless σ) (hd : s.table.Distinct) (h : s.Lined withdrawn)
    (hfree : ∀ l, a.asker? = some l → ∀ call c, s.waiting.get? call = some c → c.locker ≠ l)
    {got : LockMode} (hholds : (locker, got) ∈ (s.perform a).table.holders key)
    (hnew : (locker, got) ∉ s.table.holders key) :
    ∀ e ∈ (s.perform a).table.requests key, e.owner ≠ locker → got.conflictsWith e.mode = true →
      e.rank.before (Lockers.rank s.lockers locker) = false := by
  obtain ⟨own, hown, hgranted, rfl, rfl⟩ := LockTable.mem_holders.mp hholds
  have hnotin : own ∉ s.table.requests key := fun hin =>
    hnew (LockTable.mem_holders.mpr ⟨own, hin, hgranted, rfl, rfl⟩)
  rcases perform_cases hd a key with ⟨asker, mode, hasks, hhandled⟩ | hsub
  · obtain rfl : own.owner = asker := by
      by_contra hne
      exact hnotin (hhandled.others own hown hne)
    -- The mode that it has come by is the mode that it has asked for.
    have hmode : own.mode = mode := by
      cases hhandled.gain own hown rfl hgranted with
      | held hold => exact absurd hold hnotin
      | new _ hmode => exact hmode
      | raised old hold howner hmode hweak =>
          by_cases hqueued : old.granted = true
          · revert hmode
            have := hweak hqueued
            revert this
            cases own.mode <;> cases old.mode <;> cases mode <;> simp [LockMode.max]
          · have hasked := h.mode_of_asks hfree hasks hold howner (Bool.of_not_eq_true hqueued)
            rw [hmode, hasked, LockMode.max_self]
    rw [hmode]
    exact (perform_clear hage hasks hown hgranted).resolve_left hnotin
  · exact absurd (hsub.subset hown) hnotin

/--
**Who may be overtaken.**  In a run with an empty table at the start, in which no locker begins to
ask for a key while a call of its own waits, an action gives a locker a mode that it did not have,
while a call of an elder locker waits for the key in a mode that conflicts.  Then the elder reads the
key and waits to write it, and the younger has come to read; or the elder has lost the key it read,
and its call has been told; or the elder has released the key while its call was waiting.
-/
theorem overtaken_cases (hage : Lockers.Ageless σ) (now : Nat) (lockers : σ) (shards : Nat)
    {actions : List (LockAction K L σ)} (hkeeps : ∀ b ∈ actions ++ [a], b.KeepsRanks)
    (hone : OneAtATime (new now lockers shards) (actions ++ [a]))
    (hs : s = (new now lockers shards).run actions) {got : LockMode}
    (hholds : (locker, got) ∈ (s.perform a).table.holders key)
    (hnew : (locker, got) ∉ s.table.holders key) {call : Nat} {c : LockCall K L}
    (hwaits : (s.perform a).waiting.get? call = some c) (hkey : c.key = key)
    (hconflict : c.mode.conflictsWith got = true)
    (helder : (Lockers.rank lockers c.locker).before (Lockers.rank lockers locker) = true) :
    (c.mode = .write ∧ got = .read ∧ (c.locker, .read) ∈ (s.perform a).table.holders key) ∨
    (c.mode = .write ∧ (s.perform a).table.isNotified c.signal = true ∧
      ∀ e ∈ (s.perform a).table.requests key, e.owner ≠ c.locker) ∨
    Withdrawn (new now lockers shards) (actions ++ [a]) call c := by
  have hearlier : ∀ {l}, l <+: actions → l <+: actions ++ [a] :=
    fun hl => hl.trans (List.prefix_append _ _)
  have hlined := lined_run hage now lockers shards fun b b' hprefix => hone b b' (hearlier hprefix)
  have hlined' := lined_run hage now lockers shards hone
  have hattended := attended_run hage now lockers shards hkeeps
  have hd : ((new now lockers shards).run actions).table.Distinct :=
    distinct_run (LockTable.distinct_ofShards shards) actions
  have hrank : ∀ l, Lockers.rank s.lockers l = Lockers.rank lockers l := by
    intro l
    rw [hs]
    exact rank_run hage l fun b hb => hkeeps b (List.mem_append_left _ hb)
  have hfree := hone actions a (List.prefix_refl _)
  rw [run_concat, ← hs] at hlined' hattended
  rw [← hs] at hlined hd hfree
  have hrank' : ∀ l, Lockers.rank (s.perform a).lockers l = Lockers.rank lockers l := fun l =>
    (rank_perform hage (hkeeps a (by simp)) l).trans (hrank l)
  have hclear := hlined.clear hage hd hfree hholds hnew
  subst hkey
  rcases hlined'.placed call c hwaits with hwithdrawn | ⟨-, hplaced⟩
  · exact Or.inr (Or.inr hwithdrawn)
  · have hne : c.locker ≠ locker := by
      intro hsame
      rw [hsame, Rank.before_irrefl] at helder
      exact absurd helder (by simp)
    -- An entry of the elder that conflicted would be in the way.
    have hno : ∀ e ∈ (s.perform a).table.requests c.key, e.owner = c.locker →
        got.conflictsWith e.mode = false := by
      intro e he howner
      by_contra hconflict'
      have hbefore := hclear e he (howner ▸ hne) (Bool.of_not_eq_false hconflict')
      rw [hattended.ranked c.key e he, hrank', hrank, howner, helder] at hbefore
      exact absurd hbefore (by simp)
    cases hplaced with
    | queued e he howner _ hmode =>
        have hagrees := hno e he howner
        rw [hmode, LockMode.conflictsWith_comm, hconflict] at hagrees
        exact absurd hagrees (by simp)
    | reading e he howner hgranted hread hwrite =>
        refine Or.inl ⟨hwrite, ?_, LockTable.mem_holders.mpr ⟨e, he, hgranted, howner, hread⟩⟩
        have hagrees := hno e he howner
        rw [hread] at hagrees
        revert hagrees
        cases got <;> simp [LockMode.conflictsWith]
    | lost hnone htold hwrite => exact Or.inr (Or.inl ⟨hwrite, htold, hnone⟩)

/-- An action overtakes a call that waits: it gives a locker a mode that it did not have, while an
elder is parked for a mode that conflicts. -/
def Overtakes (a : LockAction K L σ) (s : LockSession K L σ) : Prop :=
  ∃ locker key got call c, (locker, got) ∈ (s.perform a).table.holders key ∧
    (locker, got) ∉ s.table.holders key ∧ (s.perform a).waiting.get? call = some c ∧ c.key = key ∧
    (s.perform a).table.isNotified c.signal = false ∧ c.mode.conflictsWith got = true ∧
    (Lockers.rank s.lockers c.locker).before (Lockers.rank s.lockers locker) = true

/-- It is enough to look at the calls that wait when an action begins. -/
theorem oneAtATime_cons {rest : List (LockAction K L σ)}
    (hfirst : ∀ l ∈ a.asker?, ∀ p ∈ s.waiting.pairs, p.2.locker ≠ l)
    (hrest : OneAtATime (s.perform a) rest) : OneAtATime s (a :: rest) := by
  intro before b hprefix l hl call c hc
  cases before with
  | nil =>
      obtain rfl : b = a := by simpa using hprefix
      exact hfirst l hl (call, c) ((s.waiting.get?_eq_some_iff call c).mp hc)
  | cons a' before =>
      obtain ⟨rfl, hprefix'⟩ := List.cons_prefix_cons.mp hprefix
      exact hrest before b hprefix' l hl call c hc

/-- Three parties, of which the one in the middle refuses to give up. -/
def refusingMiddle : Parties :=
  ((Parties.none.put 1 ⟨⟨100, 0⟩, 1, false, false, true, none⟩).put 2
    ⟨⟨200, 0⟩, 2, false, true, true, none⟩).put 3 ⟨⟨300, 0⟩, 3, false, false, true, none⟩

/-- The eldest and the one in the middle read a key, and the eldest waits to write it. -/
def readersBeforeWriter : List (LockAction String PartyId Parties) :=
  [.lock 1 1 "k" .read, .lock 2 2 "k" .read, .lock 3 1 "k" .write]

/-- The youngest wants to read it too. -/
def youngestReads : LockAction String PartyId Parties := .lock 4 3 "k" .read

theorem oneAtATime_readersBeforeWriter :
    OneAtATime (new Party.now refusingMiddle 1) (readersBeforeWriter ++ [youngestReads]) := by
  refine oneAtATime_cons (by decide) (oneAtATime_cons (by decide) (oneAtATime_cons (by decide)
    (oneAtATime_cons (by decide) fun before b hprefix => ?_)))
  exact absurd (List.prefix_nil.mp hprefix) (by simp)

/-- The youngest reads the key, and the eldest, who waits to write it, is not even in the queue. -/
theorem exists_overtaken :
    OneAtATime (new Party.now refusingMiddle 1) (readersBeforeWriter ++ [youngestReads]) ∧
      Overtakes youngestReads ((new Party.now refusingMiddle 1).run readersBeforeWriter) := by
  refine ⟨oneAtATime_readersBeforeWriter, 3, "k", .read, 3, ⟨1, "k", .write, 2, 0⟩, ?_⟩
  decide

/-- It is a reader that waits to write who is overtaken. -/
theorem overtaken_readersBeforeWriter :
    (1, LockMode.read) ∈ ((((new Party.now refusingMiddle 1).run readersBeforeWriter).perform
      youngestReads).table.holders "k") := by
  have hactions : ∀ b ∈ readersBeforeWriter ++ [youngestReads],
      ∃ call locker key mode, b = .lock call locker key mode := by
    intro b hb
    simp only [readersBeforeWriter, youngestReads, List.cons_append, List.nil_append, List.mem_cons,
      List.not_mem_nil, or_false] at hb
    rcases hb with rfl | rfl | rfl | rfl <;> exact ⟨_, _, _, _, rfl⟩
  have hkeeps : ∀ b ∈ readersBeforeWriter ++ [youngestReads], b.KeepsRanks := by
    intro b hb
    obtain ⟨call, locker, key, mode, rfl⟩ := hactions b hb
    trivial
  have hholds : (3, LockMode.read) ∈ ((((new Party.now refusingMiddle 1).run
      readersBeforeWriter).perform youngestReads).table.holders "k") := by
    decide
  have hwaits : (((new Party.now refusingMiddle 1).run readersBeforeWriter).perform
      youngestReads).waiting.get? 3 = some ⟨1, "k", .write, 2, 0⟩ := by
    decide
  rcases overtaken_cases Parties.ageless Party.now refusingMiddle 1 hkeeps
    oneAtATime_readersBeforeWriter rfl hholds (by decide) hwaits rfl rfl (by decide) with
    ⟨-, -, hreads⟩ | ⟨-, htold, -⟩ | ⟨before, b, hrun, hwithdraws, -⟩
  · exact hreads
  · exact absurd htold (by decide)
  · obtain ⟨call, locker, key, mode, rfl⟩ := hactions b (hrun.subset (by simp))
    exact absurd hwithdraws id

end LockSession

end ObjectStore
