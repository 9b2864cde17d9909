/-
Nobody is left waiting for nothing.

A call that waits and has not been told to go on listens to an entry that still stands in its way.
The entry is granted or precedes the call's own locker, so that the eldest of those who are queued
on a key waits for a holder: as long as there is nothing left to be told, a key that somebody is
queued for is held.

`LockSession.Attended` is the invariant of all runs.
-/
import Mathlib.Data.List.Induction
import ObjectStore.Proofs.Locking.Exclusion
import ObjectStore.Proofs.Locking.Waiting

namespace ObjectStore

/-- If the action changes lockers it leaves them their ranks. -/
def LockAction.KeepsRanks {K L σ : Type} [Lockers σ L] : LockAction K L σ → Prop
  | .change f => ∀ s l, Lockers.rank (f s) l = Lockers.rank s l
  | _ => True

namespace LockSession

variable {K L σ : Type} [DecidableEq K] [Hashable K] [DecidableEq L] [Lockers σ L]

/-- A waiting call has been told to go on, or listens to a request that bars its own. -/
def Heeded (s : LockSession K L σ) (c : LockCall K L) : Prop :=
  s.table.isNotified c.signal = true ∨
    ∃ e, s.table.Listens c.key c.signal e ∧
      e.Bars (Lockers.rank s.lockers c.locker) (fun _ => True) c.locker c.mode

/-- Every waiting call is heeded, and whoever is queued on a key has a call that waits for it. -/
structure Attended (s : LockSession K L σ) : Prop where
  distinct : s.table.Distinct
  fresh : s.table.Fresh
  ranked : s.table.Ranked s.lockers
  heeded : ∀ call c, s.waiting.get? call = some c → s.Heeded c
  queued : ∀ key, ∀ e ∈ s.table.requests key, e.granted = false →
    ∃ call c, s.waiting.get? call = some c ∧ c.locker = e.owner ∧ c.key = key

variable {s s' : LockSession K L σ}

omit [DecidableEq L] in
/-- What a call listens to keeps barring it, unless the call is told. -/
theorem Heeded.mono {c : LockCall K L} (h : s.Heeded c) (hheard : LockTable.Heard s.table s'.table)
    (hrank : ∀ l, Lockers.rank s'.lockers l = Lockers.rank s.lockers l) : s'.Heeded c := by
  rcases h with htold | ⟨e, hlistens, hbars⟩
  · exact Or.inl (hheard.told _ htold)
  · rcases hheard.kept _ _ _ hlistens with hkept | htold
    · refine Or.inr ⟨e, hkept, ?_⟩
      rw [hrank]
      exact hbars
    · exact Or.inl htold

omit [DecidableEq L] in
theorem Attended.frame (h : Attended s) (hheard : LockTable.Heard s.table s'.table)
    (hrank : ∀ l, Lockers.rank s'.lockers l = Lockers.rank s.lockers l)
    (hwaiting : s'.waiting = s.waiting) (hdistinct : s'.table.Distinct)
    (hranked : s'.table.Ranked s'.lockers) (hbacked : s'.Backed) : Attended s' where
  distinct := hdistinct
  fresh := hheard.fresh h.fresh
  ranked := hranked
  heeded := by
    intro call c hc
    rw [hwaiting] at hc
    exact (h.heeded call c hc).mono hheard hrank
  queued := hbacked

omit [DecidableEq L] in
theorem Attended.eased (h : Attended s) {table : LockTable K L}
    (heased : LockTable.Eased s.table table) : Attended { s with table } :=
  h.frame heased.heard (fun _ => rfl) rfl (fun key => (h.distinct key).sublist (heased.requests key))
    (fun key e he => h.ranked key e ((heased.requests key).subset he))
    (Backed.mono h.queued rfl fun key _ he _ => (heased.requests key).subset he)

/-! ### Turns -/

theorem Attended.takeTurn (hage : Lockers.Ageless σ) (h : Attended s) {call : Nat} {locker : L}
    {key : K} (mode : LockMode) (deadline : Nat)
    (hsame : ∀ c, s.waiting.get? call = some c → c.locker = locker ∧ c.key = key) :
    Attended (s.takeTurn call locker key mode deadline).2 := by
  rcases hturn : s.table.turn s.now deadline locker key mode s.lockers with ⟨turn, lockers, table⟩
  obtain ⟨waiting, heq, hwaiting⟩ := takeTurn_eq call hturn
  have hheard := LockTable.heard_turn h.distinct hturn
  have hbacked := Backed.takeTurn h.distinct h.queued mode deadline hsame
  rw [heq] at hbacked ⊢
  refine ⟨h.distinct.turn hturn, hheard.fresh h.fresh,
    LockTable.ranked_turn hage h.distinct h.ranked hturn, fun call' c hc => ?_, hbacked⟩
  rcases (hwaiting call' c).mp hc with ⟨-, hold⟩ | ⟨-, signal, rfl, rfl⟩
  · exact (h.heeded call' c hold).mono hheard (LockTable.rank_turn hage hturn)
  · obtain ⟨-, -, e, hlistens, hbars⟩ := LockTable.turn_waiting .any h.distinct h.fresh hturn
    exact Or.inr ⟨e, (hlistens e).mpr rfl, hbars⟩

/-! ### Actions and runs -/

/-- **Every action leaves all waiting calls heeded.** -/
theorem Attended.perform (hage : Lockers.Ageless σ) (h : Attended s) {a : LockAction K L σ}
    (hkeeps : a.KeepsRanks) : Attended (s.perform a) := by
  cases a with
  | lock call locker key mode =>
      by_cases hwaits : s.isWaiting call = true
      · simp only [LockSession.perform, if_pos hwaits]
        exact h
      · simp only [LockSession.perform, if_neg hwaits, LockSession.lock]
        refine h.takeTurn hage mode _ fun c hc => ?_
        exact absurd (by simp [isWaiting, FinMap.contains, hc]) hwaits
  | resume call =>
      cases hdue : s.dueCall? call with
      | none =>
          simp only [LockSession.perform, hdue]
          exact h
      | some c =>
          have hwaits : s.waiting.get? call = some c := (Option.filter_eq_some_iff.mp hdue).1
          have heq : s.perform (.resume call) =
              (s.takeTurn call c.locker c.key c.mode c.deadline).2 := by
            simp [LockSession.perform, hdue, resume, hwaits]
          rw [heq]
          refine h.takeTurn hage c.mode c.deadline fun c' hc' => ?_
          rw [hwaits] at hc'
          cases hc'
          exact ⟨rfl, rfl⟩
  | tryLock locker key mode =>
      rcases htry : s.table.tryLock s.now locker key mode s.lockers with ⟨answer, lockers, table⟩
      have heq : s.perform (.tryLock locker key mode) = { s with lockers, table } := tryLock_eq htry
      have hbacked := Backed.perform h.distinct h.queued (.tryLock locker key mode)
      rw [heq] at hbacked ⊢
      rcases LockTable.tryLock_cases htry with ⟨rfl, rfl⟩ | ⟨verdict, hattempt⟩
      · exact h
      · exact h.frame (LockTable.heard_attempt h.distinct hattempt)
          (LockTable.rank_attempt hage hattempt) rfl
          (LockTable.distinct_attempt h.distinct hattempt)
          (LockTable.ranked_attempt hage h.distinct h.ranked hattempt) hbacked
  | release locker key => exact h.eased (LockTable.eased_release h.distinct locker key)
  | releaseAll locker => exact h.eased (LockTable.eased_releaseAll h.distinct locker)
  | change f =>
      refine h.frame (.refl _) (hkeeps s.lockers) rfl h.distinct (fun key e he => ?_) h.queued
      exact (h.ranked key e he).trans (hkeeps s.lockers e.owner).symm
  | tick n => exact ⟨h.distinct, h.fresh, h.ranked, h.heeded, h.queued⟩

omit [DecidableEq L] in
theorem attended_new (now : Nat) (lockers : σ) (shards : Nat) :
    Attended (new now lockers shards : LockSession K L σ) where
  distinct := LockTable.distinct_ofShards shards
  fresh := LockTable.fresh_ofShards shards
  ranked := LockTable.ranked_ofShards lockers shards
  heeded := fun _ _ hc => absurd hc (by simp [new])
  queued := backed_new now lockers shards

theorem attended_run (hage : Lockers.Ageless σ) (now : Nat) (lockers : σ) (shards : Nat)
    {actions : List (LockAction K L σ)} (hkeeps : ∀ a ∈ actions, a.KeepsRanks) :
    Attended ((new now lockers shards).run actions) := by
  -- By induction on the length of the run, from its last action.
  induction actions using List.reverseRecOn with
  | nil => exact attended_new now lockers shards
  | append_singleton before a ih =>
      rw [run_concat]
      refine (ih fun b hb => hkeeps b (List.mem_append_left _ hb)).perform hage ?_
      exact hkeeps a (List.mem_append_right _ (List.mem_singleton_self a))

/-! ### Nobody is stranded -/

omit [DecidableEq L] in
/-- What a call listens to is an entry of its key, of another locker, whose mode conflicts and which
precedes the call's locker or is granted. -/
theorem Attended.exists_entry (h : Attended s) {call : Nat} {c : LockCall K L}
    (hc : s.waiting.get? call = some c) (huntold : s.table.isNotified c.signal = false) :
    ∃ e ∈ s.table.entries c.key, c.signal ∈ e.listeners ∧ e.owner ≠ c.locker ∧
      c.mode.conflictsWith e.mode = true ∧
      ((Lockers.rank s.lockers e.owner).before (Lockers.rank s.lockers c.locker) = true ∨
        e.granted = true) := by
  rcases h.heeded call c hc with htold | ⟨_, ⟨x, hx, rfl, hsignal⟩, hbars⟩
  · rw [huntold] at htold
    exact absurd htold (by simp)
  · have hrank : x.rank = Lockers.rank s.lockers x.owner :=
      h.ranked c.key x.request (List.mem_map_of_mem hx)
    refine ⟨x, hx, hsignal, hbars.other, hbars.conflicts, hbars.cause.imp ?_ And.left⟩
    intro hbefore
    rw [← hrank]
    exact hbefore

omit [DecidableEq L] in
/-- While there is nothing left to be told, the eldest of those in a queue waits for a holder. -/
theorem Attended.holders_ne_nil (h : Attended s)
    (huntold : ∀ call c, s.waiting.get? call = some c → s.table.isNotified c.signal = false)
    {key : K} (hqueue : s.table.waiters key ≠ []) : s.table.holders key ≠ [] := by
  cases heldest : LockEntry.eldest ((s.table.entries key).filter (!·.granted)) with
  | none =>
      refine absurd ?_ hqueue
      simp [LockTable.waiters, LockEntry.eldest_eq_none_iff.mp heldest]
  | some first =>
      obtain ⟨hin, hqueued⟩ := List.mem_filter.mp (LockEntry.mem_of_eldest heldest)
      obtain ⟨call, c, hc, hlocker, rfl⟩ :=
        h.queued key first.request (List.mem_map_of_mem hin) (Bool.not_eq_true' _ ▸ hqueued)
      obtain ⟨e, he, -, -, -, hcause⟩ := h.exists_entry hc (huntold call c hc)
      have hgranted : e.granted = true := by
        -- An entry that precedes the eldest of the queue is not in the queue.
        by_contra hno
        have hbefore := hcause.resolve_right hno
        have hfirst := LockEntry.before_eldest heldest e
          (List.mem_filter.mpr ⟨he, by simpa using hno⟩)
        have hrank : ∀ x ∈ s.table.entries c.key, x.rank = Lockers.rank s.lockers x.owner :=
          fun x hx => h.ranked c.key x.request (List.mem_map_of_mem hx)
        have howner : c.locker = first.owner := hlocker
        rw [hrank e he, hrank first hin, ← howner, hbefore] at hfirst
        exact absurd hfirst (by simp)
      intro hnone
      have hmem : (e.owner, e.mode) ∈ s.table.holders c.key :=
        List.mem_map.mpr ⟨e, List.mem_filter.mpr ⟨he, hgranted⟩, rfl⟩
      rw [hnone] at hmem
      exact List.not_mem_nil hmem

/--
**Nobody is left waiting for nothing.**  After any actions of any lockers, a waiting call that has
not been told to go on listens to an entry that is still there and still in its way; and when there
is nothing left to be told, every key with a queue has a holder.
-/
theorem never_stranded (hage : Lockers.Ageless σ) (now : Nat) (lockers : σ) (shards : Nat)
    {actions : List (LockAction K L σ)} (hkeeps : ∀ a ∈ actions, a.KeepsRanks)
    {s : LockSession K L σ} (hs : s = (new now lockers shards).run actions) :
    (∀ call c, s.waiting.get? call = some c → s.table.isNotified c.signal = false →
      ∃ e ∈ s.table.entries c.key, c.signal ∈ e.listeners ∧ e.owner ≠ c.locker ∧
        c.mode.conflictsWith e.mode = true ∧
        ((Lockers.rank s.lockers e.owner).before (Lockers.rank s.lockers c.locker) = true ∨
          e.granted = true)) ∧
    ((∀ call c, s.waiting.get? call = some c → s.table.isNotified c.signal = false) →
      ∀ key, s.table.waiters key ≠ [] → s.table.holders key ≠ []) := by
  subst hs
  have hattended := attended_run hage now lockers shards hkeeps
  exact ⟨fun call c => hattended.exists_entry, fun huntold key => hattended.holders_ne_nil huntold⟩

end LockSession

theorem Parties.ageless : Lockers.Ageless Parties := by
  intro s l reason l'
  show Rank.mk ((s.put l ((s.find l).wound reason).2).find l').seniority
    ((s.put l ((s.find l).wound reason).2).find l').ordinal = ⟨(s.find l').seniority, (s.find l').ordinal⟩
  rw [Parties.find_put]
  split
  · rename_i hl
    subst hl
    unfold Party.wound
    split <;> rfl
  · rfl

namespace LockSession

/-- The elder writes a key and the younger waits to read it. -/
def readBehindWriter : List (LockAction String PartyId Parties) :=
  [.lock 1 1 "k" .write, .lock 2 2 "k" .read]

/-- The younger listens to the entry of the elder, who holds the key. -/
theorem never_stranded_behind_writer :
    (∃ e ∈ ((new Party.now elderAndYounger 1).run readBehindWriter).table.entries "k",
      0 ∈ e.listeners ∧ e.owner ≠ 2) ∧
    ((new Party.now elderAndYounger 1).run readBehindWriter).table.holders "k" ≠ [] := by
  have hkeeps : ∀ a ∈ readBehindWriter, a.KeepsRanks := by
    intro a ha
    rcases List.mem_cons.mp ha with rfl | hlast
    · trivial
    · rw [List.mem_singleton.mp hlast]
      trivial
  obtain ⟨hlistens, hheld⟩ :=
    never_stranded Parties.ageless Party.now elderAndYounger 1 hkeeps rfl
  have hwaits : ((new Party.now elderAndYounger 1).run readBehindWriter).waiting.get? 2 =
      some ⟨2, "k", .read, 2, 0⟩ := by
    decide
  have huntold : ∀ call c,
      ((new Party.now elderAndYounger 1).run readBehindWriter).waiting.get? call = some c →
      ((new Party.now elderAndYounger 1).run readBehindWriter).table.isNotified c.signal = false := by
    have hnone : ((new Party.now elderAndYounger 1).run readBehindWriter).table.notified = [] := by
      decide
    intro call c _
    simp [LockTable.isNotified, hnone]
  obtain ⟨e, he, hsignal, hother, -⟩ := hlistens 2 _ hwaits (huntold 2 _ hwaits)
  refine ⟨⟨e, he, hsignal, hother⟩, hheld huntold "k" ?_⟩
  have hqueue : (((new Party.now elderAndYounger 1).run readBehindWriter).table.entries "k").filter
      (!·.granted) = [⟨⟨2, ⟨⟨200, 0⟩, 2⟩, 2, []⟩, .read, false⟩] := by
    decide
  simp [LockTable.waiters, hqueue]

end LockSession

end ObjectStore
