/-
The number of shards does not show.

Two tables are `LockTable.Alike` if they have the same entries on every key, whatever shards their
keys are in.  Every operation does the same on tables that are alike, and leaves them alike.  Only
two operations look at all shards at once: whether a table is empty does not depend on the shards
because a key is stored with entries only, and when a locker releases everything, the shards decide
the order in which those who listened hear of it, but not who hears.

`LockSession.shards_invisible` follows by induction over a run.
-/
import ObjectStore.Proofs.Locking.Justice
import ObjectStore.Proofs.Locking.Upkeep

namespace ObjectStore

namespace LockTable

variable {K L σ : Type} [Hashable K] [DecidableEq K] {t t' : LockTable K L} {key : K}
variable {before before' : List Signal}

/-- When a locker releases everything, exactly those hear of it who listened to its entries. -/
theorem Tidy.notified_releaseAll [DecidableEq L] (h : t.Tidy) (locker : L) :
    ∃ heard, (t.releaseAll locker).notified = t.notified ++ heard ∧
      ∀ n, n ∈ heard ↔ ∃ key e,
        (t.entries key).find? (fun e => decide (e.owner = locker)) = some e ∧ n ∈ e.listeners := by
  refine ⟨_, rfl, fun n => ?_⟩
  simp only [List.mem_flatMap]
  constructor
  · rintro ⟨shard, hshard, ⟨key, es⟩, hpair, hn⟩
    obtain ⟨i, hi⟩ := List.getElem?_of_mem hshard
    have hget := (FinMap.get?_eq_some_iff shard key es).mpr hpair
    have hentries : t.entries key = es := by
      unfold entries
      rw [(h i shard hi key es hget).1, hi, Option.bind_some, hget]
      rfl
    cases hfind : es.find? fun e => decide (e.owner = locker) with
    | none => simp [hfind] at hn
    | some e => exact ⟨key, e, hentries ▸ hfind, by simpa [hfind] using hn⟩
  · rintro ⟨key, e, hfind, hn⟩
    obtain ⟨shard, hshard⟩ := t.exists_shard key
    cases hget : shard.get? key with
    | none => simp [entries, hshard, hget] at hfind
    | some es =>
        have hentries : t.entries key = es := by simp [entries, hshard, hget]
        rw [hentries] at hfind
        exact ⟨shard, List.mem_of_getElem? hshard, (key, es),
          (FinMap.get?_eq_some_iff shard key es).mp hget, by simpa [hfind] using hn⟩

/-! ### Tables that are alike -/

/-- Two tables show the same.  Of the signals that they have given, the first ones are `before` and
`before'`; these are the same signals, and so are those that have been given since. -/
structure Alike (before before' : List Signal) (t t' : LockTable K L) : Prop where
  entries : ∀ key, t.entries key = t'.entries key
  parked : t.parked = t'.parked
  nextSignal : t.nextSignal = t'.nextSignal
  earlier : ∀ n, n ∈ before ↔ n ∈ before'
  since : ∃ later later', t.notified = before ++ later ∧ t'.notified = before' ++ later' ∧
    ∀ n, n ∈ later ↔ n ∈ later'

theorem alike_ofShards (m n : Nat) :
    Alike [] [] (ofShards m : LockTable K L) (ofShards n : LockTable K L) where
  entries key := by rw [entries_ofShards, entries_ofShards]
  parked := rfl
  nextSignal := rfl
  earlier _ := Iff.rfl
  since := ⟨[], [], rfl, rfl, fun _ => Iff.rfl⟩

namespace Alike

theorem mem_notified (h : Alike before before' t t') (n : Signal) :
    n ∈ t.notified ↔ n ∈ t'.notified := by
  obtain ⟨later, later', hnotified, hnotified', hlater⟩ := h.since
  rw [hnotified, hnotified', List.mem_append, List.mem_append, h.earlier, hlater]

theorem refl (t : LockTable K L) : Alike t.notified t.notified t t where
  entries _ := rfl
  parked := rfl
  nextSignal := rfl
  earlier _ := Iff.rfl
  since := ⟨[], [], (List.append_nil _).symm, (List.append_nil _).symm, fun _ => Iff.rfl⟩

/-- Counted from here on. -/
theorem now (h : Alike before before' t t') : Alike t.notified t'.notified t t' :=
  { h with
    earlier := h.mem_notified
    since := ⟨[], [], (List.append_nil _).symm, (List.append_nil _).symm, fun _ => Iff.rfl⟩ }

theorem mem_later (h : Alike before before' t t') (n : Signal) :
    n ∈ t.notified.drop before.length ↔ n ∈ t'.notified.drop before'.length := by
  obtain ⟨later, later', hnotified, hnotified', hlater⟩ := h.since
  rw [hnotified, hnotified', List.drop_left, List.drop_left]
  exact hlater n

theorem isDue (h : Alike before before' t t') (now deadline : Nat) (signal : Signal) :
    t.isDue now deadline signal = t'.isDue now deadline signal := by
  have hnotified : t.isNotified signal = t'.isNotified signal := by
    rw [Bool.eq_iff_iff, isNotified_iff, isNotified_iff]
    exact h.mem_notified signal
  unfold LockTable.isDue
  rw [hnotified]

theorem holders (h : Alike before before' t t') (key : K) : t.holders key = t'.holders key := by
  unfold LockTable.holders
  rw [h.entries]

theorem waiters (h : Alike before before' t t') (key : K) : t.waiters key = t'.waiters key := by
  unfold LockTable.waiters
  rw [h.entries]

theorem isEmpty (h : Alike before before' t t') (ht : t.Tidy) (ht' : t'.Tidy) :
    t.isEmpty = t'.isEmpty := by
  rw [Bool.eq_iff_iff, ht.isEmpty_iff, ht'.isEmpty_iff]
  exact forall_congr' fun key => by rw [h.entries]

/-! ### What an operation is made of -/

theorem setEntries (h : Alike before before' t t') (key : K) (es : List (LockEntry L)) :
    Alike before before' (t.setEntries key es) (t'.setEntries key es) :=
  { h with entries := fun key' => by rw [entries_setEntries, entries_setEntries, h.entries] }

theorem notify (h : Alike before before' t t') {heard heard' : List Signal}
    (hheard : ∀ n, n ∈ heard ↔ n ∈ heard') :
    Alike before before' { t with notified := t.notified ++ heard }
      { t' with notified := t'.notified ++ heard' } := by
  obtain ⟨later, later', hnotified, hnotified', hlater⟩ := h.since
  refine { h with since := ⟨later ++ heard, later' ++ heard', ?_, ?_, fun n => ?_⟩ }
  · rw [hnotified, List.append_assoc]
  · rw [hnotified', List.append_assoc]
  · rw [List.mem_append, List.mem_append, hlater, hheard]

variable [DecidableEq L] {locker : L}

theorem unpark (h : Alike before before' t t') (locker : L) :
    Alike before before' { t with parked := t.parked.erase locker }
      { t' with parked := t'.parked.erase locker } :=
  { h with parked := congrArg (·.erase locker) h.parked }

theorem park (h : Alike before before' t t') (key : K) (locker holder : L) :
    Alike before before' (t.park key locker holder).2 (t'.park key locker holder).2 := by
  have hlisten : Alike before before' (t.listen key holder t.nextSignal)
      (t'.listen key holder t'.nextSignal) := by
    unfold listen
    rw [h.entries, h.nextSignal]
    exact h.setEntries key _
  have hparked : t.parked.insert locker t.nextSignal = t'.parked.insert locker t'.nextSignal := by
    rw [h.parked, h.nextSignal]
  exact { hlisten with parked := hparked, nextSignal := congrArg (· + 1) h.nextSignal }

/-! ### Operations -/

theorem release (h : Alike before before' t t') (locker : L) (key : K) :
    (t.release locker key).1 = (t'.release locker key).1 ∧
      Alike before before' (t.release locker key).2 (t'.release locker key).2 := by
  unfold LockTable.release
  rw [h.entries]
  cases (t'.entries key).find? (·.owner = locker) with
  | none => exact ⟨rfl, h⟩
  | some e => exact ⟨rfl, (h.setEntries key _).notify fun _ => Iff.rfl⟩

theorem abandon (h : Alike before before' t t') (locker : L) (key : K) :
    Alike before before' (t.abandon locker key) (t'.abandon locker key) := by
  have hunparked := h.unpark locker
  unfold LockTable.abandon
  simp only
  rw [hunparked.entries]
  split
  · exact hunparked
  · split
    · exact hunparked
    · exact (hunparked.release locker key).2

theorem releaseAll (h : Alike before before' t t') (ht : t.Tidy) (ht' : t'.Tidy) (locker : L) :
    Alike before before' (t.releaseAll locker) (t'.releaseAll locker) where
  entries key := by rw [entries_releaseAll, entries_releaseAll, h.entries]
  parked := (h.unpark locker).parked
  nextSignal := h.nextSignal
  earlier := h.earlier
  since := by
    obtain ⟨heard, hnotified, hheard⟩ := ht.notified_releaseAll locker
    obtain ⟨heard', hnotified', hheard'⟩ := ht'.notified_releaseAll locker
    rw [hnotified, hnotified']
    refine (h.notify fun n => ?_).since
    rw [hheard, hheard']
    simp only [h.entries]

variable [Lockers σ L] {now deadline : Nat} {mode : LockMode} {wait : Bool} {s s₁ : σ}
variable {t₁ : LockTable K L}

/-- An attempt looks at the entries of one key and at who is parked, so that it goes the same way. -/
theorem attempt (h : Alike before before' t t') {verdict : Verdict L}
    (hattempt : t.attempt now locker key mode wait s = (verdict, s₁, t₁)) :
    ∃ t₁', t'.attempt now locker key mode wait s = (verdict, s₁, t₁') ∧
      Alike before before' t₁ t₁' := by
  obtain ⟨c, hc, rfl, rfl⟩ := attempt_eq hattempt
  rw [h.parked, h.entries] at hc
  refine ⟨_, ?_, (h.setEntries key c.entries).notify fun _ => Iff.rfl⟩
  unfold LockTable.attempt
  rw [hc]
  rfl

theorem turn (h : Alike before before' t t') {answer : LockTurn L}
    (hturn : t.turn now deadline locker key mode s = (answer, s₁, t₁)) :
    ∃ t₁', t'.turn now deadline locker key mode s = (answer, s₁, t₁') ∧
      Alike before before' t₁ t₁' := by
  cases turn_outcome hturn with
  | inactive hinactive =>
      refine ⟨_, ?_, h.abandon locker key⟩
      rw [LockTable.turn_eq]
      simp [hinactive]
  | granted hactive hattempt =>
      obtain ⟨t₂', hattempt', hafter⟩ := h.attempt hattempt
      refine ⟨_, ?_, hafter.unpark locker⟩
      rw [LockTable.turn_eq]
      simp [hactive, hattempt']
  | timedOut hactive hattempt hlate =>
      obtain ⟨t₂', hattempt', hafter⟩ := h.attempt hattempt
      refine ⟨_, ?_, (hafter.park key locker _).abandon locker key⟩
      rw [LockTable.turn_eq]
      simp [hactive, hattempt', hlate]
  | waiting hactive hattempt hearly =>
      obtain ⟨t₂', hattempt', hafter⟩ := h.attempt hattempt
      refine ⟨_, ?_, hafter.park key locker _⟩
      rw [LockTable.turn_eq]
      simp [hactive, hattempt', Nat.not_le.mpr hearly, LockTable.park, hafter.nextSignal]

theorem tryLock (h : Alike before before' t t') {answer : Except (LockError L) (LockAnswer K L)}
    (htry : t.tryLock now locker key mode s = (answer, s₁, t₁)) :
    ∃ t₁', t'.tryLock now locker key mode s = (answer, s₁, t₁') ∧ Alike before before' t₁ t₁' := by
  unfold LockTable.tryLock at htry ⊢
  by_cases hactive : Lockers.isActive s locker = true
  · rw [if_pos hactive] at htry ⊢
    rcases hattempt : t.attempt now locker key mode false s with ⟨verdict, s₂, t₂⟩
    obtain ⟨t₂', hattempt', hafter⟩ := h.attempt hattempt
    rw [hattempt] at htry
    rw [hattempt']
    cases verdict with
    | granted =>
        cases htry
        exact ⟨t₂', rfl, hafter⟩
    | blocked holder =>
        cases htry
        exact ⟨t₂', rfl, hafter⟩
  · rw [if_neg hactive] at htry ⊢
    cases htry
    exact ⟨t', rfl, h⟩

end Alike

end LockTable

/-! ### Sessions -/

/-- What is heard of an action. -/
inductive LockReply (K L : Type) where
  | nothing
  /-- A call has taken a turn; without an outcome it waits. -/
  | turn (outcome : Option (LockSession.Outcome L))
  | tried (answer : Except (LockError L) (LockAnswer K L))
  /-- Whether there was something to release. -/
  | released (found : Bool)

namespace LockSession

variable {K L σ : Type} [DecidableEq K] [Hashable K] [DecidableEq L] [Lockers σ L]

/-- What an action answers. -/
def reply (a : LockAction K L σ) (s : LockSession K L σ) : LockReply K L :=
  match a with
  | .lock call locker key mode =>
    if s.isWaiting call then .nothing else .turn (s.lock call locker key mode).1
  | .resume call => if (s.dueCall? call).isSome then .turn (s.resume call).1 else .nothing
  | .tryLock locker key mode => .tried (s.tryLock locker key mode).1
  | .release locker key => .released (s.release locker key).1
  | .releaseAll _ | .change _ | .tick _ => .nothing

/-- The signals that an action gives, each of which wakes one parked call. -/
def gives (a : LockAction K L σ) (s : LockSession K L σ) : List Signal :=
  (s.perform a).table.notified.drop s.table.notified.length

variable {s s' : LockSession K L σ} {before before' : List Signal}

/-- Two sessions of the same lockers, in which the same calls wait, on tables that are alike. -/
structure Alike (before before' : List Signal) (s s' : LockSession K L σ) : Prop where
  now : s.now = s'.now
  lockers : s.lockers = s'.lockers
  waiting : s.waiting = s'.waiting
  table : s.table.Alike before before' s'.table

namespace Alike

omit [DecidableEq L] [Lockers σ L] in
theorem dueCall? (h : Alike before before' s s') (call : Nat) :
    s.dueCall? call = s'.dueCall? call := by
  unfold LockSession.dueCall?
  rw [h.waiting, h.now]
  simp only [h.table.isDue]

theorem takeTurn (h : Alike before before' s s') (call : Nat) (locker : L) (key : K)
    (mode : LockMode) (deadline : Nat) :
    (s.takeTurn call locker key mode deadline).1 = (s'.takeTurn call locker key mode deadline).1 ∧
      Alike before before' (s.takeTurn call locker key mode deadline).2
        (s'.takeTurn call locker key mode deadline).2 := by
  rcases hturn : s.table.turn s.now deadline locker key mode s.lockers with ⟨turn, lockers, table⟩
  obtain ⟨table', hturn', htable⟩ := h.table.turn hturn
  rw [h.now, h.lockers] at hturn'
  unfold LockSession.takeTurn
  rw [hturn, hturn']
  have hwaiting : s.waiting.erase call = s'.waiting.erase call := congrArg (·.erase call) h.waiting
  cases turn with
  | granted => exact ⟨rfl, h.now, rfl, hwaiting, htable⟩
  | failed error => exact ⟨rfl, h.now, rfl, hwaiting, htable⟩
  | waiting signal =>
      have hparked := congrArg (·.insert call ⟨locker, key, mode, deadline, signal⟩) hwaiting
      exact ⟨rfl, h.now, rfl, hparked, htable⟩

theorem tryLock (h : Alike before before' s s') (locker : L) (key : K) (mode : LockMode) :
    (s.tryLock locker key mode).1 = (s'.tryLock locker key mode).1 ∧
      Alike before before' (s.tryLock locker key mode).2 (s'.tryLock locker key mode).2 := by
  rcases htry : s.table.tryLock s.now locker key mode s.lockers with ⟨answer, lockers, table⟩
  obtain ⟨table', htry', htable⟩ := h.table.tryLock htry
  rw [h.now, h.lockers] at htry'
  unfold LockSession.tryLock
  rw [htry, htry']
  exact ⟨rfl, h.now, rfl, h.waiting, htable⟩

/-- **One action** answers the same in sessions that are alike, and leaves them alike. -/
theorem perform (h : Alike before before' s s') (ht : s.table.Tidy) (ht' : s'.table.Tidy)
    (a : LockAction K L σ) :
    s.reply a = s'.reply a ∧ Alike before before' (s.perform a) (s'.perform a) := by
  cases a with
  | lock call locker key mode =>
      have hwaits : s.isWaiting call = s'.isWaiting call := congrArg (·.contains call) h.waiting
      obtain ⟨hreply, hafter⟩ :=
        h.takeTurn call locker key mode (Lockers.deadline s'.lockers locker)
      simp only [reply, LockSession.perform, lock, hwaits, h.lockers]
      split
      · exact ⟨rfl, h⟩
      · exact ⟨congrArg LockReply.turn hreply, hafter⟩
  | resume call =>
      simp only [reply, LockSession.perform, resume, h.dueCall?, h.waiting]
      cases s'.waiting.get? call with
      | none =>
          split
          · exact ⟨rfl, h⟩
          · exact ⟨rfl, h⟩
      | some c =>
          obtain ⟨hreply, hafter⟩ := h.takeTurn call c.locker c.key c.mode c.deadline
          split
          · exact ⟨congrArg LockReply.turn hreply, hafter⟩
          · exact ⟨rfl, h⟩
  | tryLock locker key mode =>
      obtain ⟨hreply, hafter⟩ := h.tryLock locker key mode
      exact ⟨congrArg LockReply.tried hreply, hafter⟩
  | release locker key =>
      obtain ⟨hreply, hafter⟩ := h.table.release locker key
      exact ⟨congrArg LockReply.released hreply, h.now, h.lockers, h.waiting, hafter⟩
  | releaseAll locker =>
      exact ⟨rfl, h.now, h.lockers, h.waiting, h.table.releaseAll ht ht' locker⟩
  | change f => exact ⟨rfl, h.now, congrArg f h.lockers, h.waiting, h.table⟩
  | tick n => exact ⟨rfl, congrArg (· + n) h.now, h.lockers, h.waiting, h.table⟩

/-- **A run** keeps sessions alike. -/
theorem run (h : Alike before before' s s') (ht : s.table.Tidy) (ht' : s'.table.Tidy)
    (actions : List (LockAction K L σ)) :
    Alike before before' (s.run actions) (s'.run actions) := by
  induction actions generalizing s s' with
  | nil => exact h
  | cons a rest ih => exact ih (h.perform ht ht' a).2 (tidy_perform ht a) (tidy_perform ht' a)

omit [DecidableEq L] [Lockers σ L] in
theorem recorded (h : Alike before before' s s') :
    Alike before before' s.recorded s'.recorded where
  now := h.now
  lockers := congrArg (Recorded.mk · []) h.lockers
  waiting := h.waiting
  table := h.table

theorem wounds (h : Alike before before' s s') (ht : s.table.Tidy) (ht' : s'.table.Tidy)
    (a : LockAction K L σ) : s.wounds a = s'.wounds a :=
  congrArg Recorded.wounds (h.recorded.perform ht ht' a.recorded).2.lockers

theorem mem_gives (h : Alike before before' s s') (ht : s.table.Tidy) (ht' : s'.table.Tidy)
    (a : LockAction K L σ) (n : Signal) : n ∈ s.gives a ↔ n ∈ s'.gives a := by
  have hnow : Alike s.table.notified s'.table.notified s s' :=
    ⟨h.now, h.lockers, h.waiting, h.table.now⟩
  exact (hnow.perform ht ht' a).2.table.mem_later n

end Alike

/-- No action takes a signal back, so that what is new is what it gives. -/
theorem notified_perform (ht : s.table.Tidy) (a : LockAction K L σ) :
    (s.perform a).table.notified = s.table.notified ++ s.gives a := by
  have hself : Alike s.table.notified s.table.notified s s := ⟨rfl, rfl, rfl, .refl s.table⟩
  obtain ⟨later, -, hlater, -⟩ := (hself.perform ht ht a).2.table.since
  rw [gives, hlater, List.drop_left]

/--
**The number of shards does not show.**  Let lockers use two tables in the same way, whatever the
hash and the numbers of shards are; no shards count as one.  Then the tables are alike after any
actions: whatever is done next gets the same answer, asks the same lockers to give up in the same
order, and gives the same signals; and the same calls wait, every key has the same holders and the
same waiters, and if one table is empty then so is the other.
-/
theorem shards_invisible (now : Nat) (lockers : σ) (m n : Nat)
    (actions : List (LockAction K L σ)) (a : LockAction K L σ) :
    let s : LockSession K L σ := (new now lockers m).run actions
    let s' : LockSession K L σ := (new now lockers n).run actions
    s.reply a = s'.reply a ∧ s.wounds a = s'.wounds a ∧
    (∀ signal, signal ∈ s.gives a ↔ signal ∈ s'.gives a) ∧
    s.lockers = s'.lockers ∧ s.waiting = s'.waiting ∧
    (∀ key, s.table.holders key = s'.table.holders key ∧
      s.table.waiters key = s'.table.waiters key) ∧
    s.table.isEmpty = s'.table.isEmpty := by
  intro s s'
  have ht : s.table.Tidy := tidy_run (LockTable.tidy_ofShards m) actions
  have ht' : s'.table.Tidy := tidy_run (LockTable.tidy_ofShards n) actions
  have hnew : Alike [] [] (new now lockers m : LockSession K L σ) (new now lockers n) :=
    ⟨rfl, rfl, rfl, LockTable.alike_ofShards m n⟩
  have h : Alike [] [] s s' :=
    hnew.run (LockTable.tidy_ofShards m) (LockTable.tidy_ofShards n) actions
  exact ⟨(h.perform ht ht' a).1, h.wounds ht ht' a, h.mem_gives ht ht' a, h.lockers, h.waiting,
    fun key => ⟨h.table.holders key, h.table.waiters key⟩, h.table.isEmpty ht ht'⟩

end LockSession

end ObjectStore
