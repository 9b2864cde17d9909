/-
Runs of one lock table.

A run is a list of actions: calls begin, waiting calls take their next turn when they are due,
entries are released, time passes, and lockers change for reasons of their own.  The actions may
come in any order, and a locker may have any number of calls under way.

`LockSession.perform_cases` says what one action does to the requests on a key: either they were
asked for, and `LockEntry.Handled` holds, or some of them are gone and nothing else has changed.
-/
import ObjectStore.Proofs.Locking.Table
import ObjectStore.Locking.Session

namespace ObjectStore

open LockEntry (Handled)

/-- What may happen next to a table and its lockers. -/
inductive LockAction (K L σ : Type) where
  /-- A call begins that waits for the key; it is known by its number. -/
  | lock (call : Nat) (locker : L) (key : K) (mode : LockMode)
  /-- The next turn of a waiting call. -/
  | resume (call : Nat)
  | tryLock (locker : L) (key : K) (mode : LockMode)
  | release (locker : L) (key : K)
  | releaseAll (locker : L)
  /-- The lockers change: one is wounded, ends, or begins. -/
  | change (f : σ → σ)
  | tick (n : Nat)

namespace LockTable

variable {K L σ : Type} [DecidableEq K] [Hashable K] [DecidableEq L] [Lockers σ L]
variable {t t' : LockTable K L} {s s' : σ} {now : Nat} {locker : L} {key : K} {mode : LockMode}

theorem tryLock_cases {answer : Except (LockError L) (LockAnswer K L)}
    (h : t.tryLock now locker key mode s = (answer, s', t')) :
    (s' = s ∧ t' = t) ∨ ∃ verdict, t.attempt now locker key mode false s = (verdict, s', t') := by
  unfold tryLock at h
  split at h
  · split at h
    · rename_i hattempt
      cases h
      exact Or.inr ⟨_, hattempt⟩
    · rename_i hattempt
      cases h
      exact Or.inr ⟨_, hattempt⟩
  · cases h
    exact Or.inl ⟨rfl, rfl⟩

end LockTable

namespace LockSession

variable {K L σ : Type}

/-- A new table in use by lockers. -/
def new (now : Nat) (lockers : σ) (shards : Nat) : LockSession K L σ :=
  ⟨now, lockers, .ofShards shards, ∅⟩

/-- The waiting call of a number, if it may take its next turn. -/
def dueCall? (call : Nat) (s : LockSession K L σ) : Option (LockCall K L) :=
  (s.waiting.get? call).filter fun c => s.table.isDue s.now c.deadline c.signal

/-- What an action asks for.  The number of a call that waits is not free for another call. -/
def asks (s : LockSession K L σ) : LockAction K L σ → Option (L × K × LockMode)
  | .lock call locker key mode => if s.isWaiting call then none else some (locker, key, mode)
  | .resume call => (s.dueCall? call).map fun c => (c.locker, c.key, c.mode)
  | .tryLock locker key mode => some (locker, key, mode)
  | _ => none

variable [DecidableEq K] [Hashable K] [DecidableEq L] [Lockers σ L]

/-- Carries an action out; one that is not possible now does nothing. -/
def perform (s : LockSession K L σ) : LockAction K L σ → LockSession K L σ
  | .lock call locker key mode => if s.isWaiting call then s else (s.lock call locker key mode).2
  | .resume call => if (s.dueCall? call).isSome then (s.resume call).2 else s
  | .tryLock locker key mode => (s.tryLock locker key mode).2
  | .release locker key => (s.release locker key).2
  | .releaseAll locker => s.releaseAll locker
  | .change f => { s with lockers := f s.lockers }
  | .tick n => { s with now := s.now + n }

/-- Carries actions out one after another. -/
def run (actions : List (LockAction K L σ)) (s : LockSession K L σ) : LockSession K L σ :=
  actions.foldl perform s

theorem run_concat (actions : List (LockAction K L σ)) (a : LockAction K L σ)
    (s : LockSession K L σ) : s.run (actions ++ [a]) = (s.run actions).perform a := by
  simp [run]

/-! ### What an action comes to -/

/-- The ways in which an action can go.  A call takes a turn when it begins, if its number is free,
and when it is due. -/
inductive Performed (s : LockSession K L σ) : LockAction K L σ → LockSession K L σ → Prop where
  | busy {call : Nat} {locker : L} {key : K} {mode : LockMode} {c : LockCall K L}
    (h : s.waiting.get? call = some c) : Performed s (.lock call locker key mode) s
  | begun {call : Nat} {locker : L} {key : K} {mode : LockMode}
    (h : s.waiting.get? call = none) :
    Performed s (.lock call locker key mode)
      (s.takeTurn call locker key mode (Lockers.deadline s.lockers locker)).2
  | early {call : Nat} (h : s.dueCall? call = none) : Performed s (.resume call) s
  | resumed {call : Nat} {c : LockCall K L} (h : s.dueCall? call = some c)
    (hwaits : s.waiting.get? call = some c) :
    Performed s (.resume call) (s.takeTurn call c.locker c.key c.mode c.deadline).2
  | tried {locker : L} {key : K} {mode : LockMode} :
    Performed s (.tryLock locker key mode) (s.tryLock locker key mode).2
  | released {locker : L} {key : K} : Performed s (.release locker key) (s.release locker key).2
  | releasedAll {locker : L} : Performed s (.releaseAll locker) (s.releaseAll locker)
  | changed {f : σ → σ} : Performed s (.change f) { s with lockers := f s.lockers }
  | ticked {n : Nat} : Performed s (.tick n) { s with now := s.now + n }

theorem performed (s : LockSession K L σ) (a : LockAction K L σ) : Performed s a (s.perform a) := by
  cases a with
  | lock call locker key mode =>
      cases hwaits : s.waiting.get? call with
      | none =>
          have hfree : s.isWaiting call = false := by simp [isWaiting, FinMap.contains, hwaits]
          simp only [perform, hfree]
          exact .begun hwaits
      | some c =>
          have hbusy : s.isWaiting call = true := by simp [isWaiting, FinMap.contains, hwaits]
          simp only [perform, if_pos hbusy]
          exact .busy hwaits
  | resume call =>
      cases hdue : s.dueCall? call with
      | none =>
          simp only [perform, hdue]
          exact .early hdue
      | some c =>
          have hwaits : s.waiting.get? call = some c := (Option.filter_eq_some_iff.mp hdue).1
          simp only [perform, hdue, Option.isSome_some, if_true, resume, hwaits]
          exact .resumed hdue hwaits
  | tryLock locker key mode => exact .tried
  | release locker key => exact .released
  | releaseAll locker => exact .releasedAll
  | change f => exact .changed
  | tick n => exact .ticked

variable {s : LockSession K L σ}

theorem takeTurn_eq (call : Nat) {locker : L} {key : K} {mode : LockMode} {deadline : Nat}
    {turn : LockTurn L} {lockers : σ} {table : LockTable K L}
    (h : s.table.turn s.now deadline locker key mode s.lockers = (turn, lockers, table)) :
    ∃ waiting, (s.takeTurn call locker key mode deadline).2 = ⟨s.now, lockers, table, waiting⟩ ∧
      ∀ call' c, waiting.get? call' = some c ↔
        (call ≠ call' ∧ s.waiting.get? call' = some c) ∨
          (call = call' ∧ ∃ signal, turn = .waiting signal ∧
            c = ⟨locker, key, mode, deadline, signal⟩) := by
  unfold takeTurn
  rw [h]
  cases turn with
  | granted =>
      refine ⟨_, rfl, fun call' c => ?_⟩
      rw [FinMap.get?_erase]
      by_cases hcall : call = call' <;> simp [hcall]
  | failed e =>
      refine ⟨_, rfl, fun call' c => ?_⟩
      rw [FinMap.get?_erase]
      by_cases hcall : call = call' <;> simp [hcall]
  | waiting signal =>
      refine ⟨_, rfl, fun call' c => ?_⟩
      rw [FinMap.get?_insert, FinMap.get?_erase]
      by_cases hcall : call = call' <;> simp [hcall, eq_comm]

theorem tryLock_eq {locker : L} {key : K} {mode : LockMode}
    {answer : Except (LockError L) (LockAnswer K L)} {lockers : σ} {table : LockTable K L}
    (h : s.table.tryLock s.now locker key mode s.lockers = (answer, lockers, table)) :
    (s.tryLock locker key mode).2 = { s with lockers, table } := by
  unfold tryLock
  rw [h]

/-! ### What one action does to the requests on a key -/

/-- A turn of a call asks for its key on behalf of its locker. -/
theorem handled_takeTurn (hd : s.table.Distinct) (call : Nat) (locker : L) (key : K)
    (mode : LockMode) (deadline : Nat) :
    Handled (fun _ => True) locker mode (s.table.requests key)
        ((s.takeTurn call locker key mode deadline).2.table.requests key) ∧
      ∀ key', key ≠ key' →
        (s.takeTurn call locker key mode deadline).2.table.requests key' =
          s.table.requests key' := by
  rcases hturn : s.table.turn s.now deadline locker key mode s.lockers with ⟨turn, lockers, table⟩
  obtain ⟨waiting, heq, -⟩ := takeTurn_eq call hturn
  rw [heq]
  exact ⟨(LockTable.turn_spec .any hd hturn).toHandled,
    fun key' hkey => LockTable.requests_turn_of_ne hturn hkey⟩

/-- A request that is asked for is handled; any other request stays as it is or goes. -/
theorem perform_cases (hd : s.table.Distinct) (a : LockAction K L σ) (key : K) :
    (∃ locker mode, s.asks a = some (locker, key, mode) ∧
      Handled (fun _ => True) locker mode (s.table.requests key)
        ((s.perform a).table.requests key)) ∨
    ((s.perform a).table.requests key).Sublist (s.table.requests key) := by
  -- A call that takes a turn on some key either does so on this one or leaves it alone.
  have hturn : ∀ call locker key₀ mode deadline,
      s.asks a = some (locker, key₀, mode) →
      s.perform a = (s.takeTurn call locker key₀ mode deadline).2 →
      (∃ locker mode, s.asks a = some (locker, key, mode) ∧
        Handled (fun _ => True) locker mode (s.table.requests key)
          ((s.perform a).table.requests key)) ∨
      ((s.perform a).table.requests key).Sublist (s.table.requests key) := by
    intro call locker key₀ mode deadline hasks hperform
    obtain ⟨hhandled, hother⟩ := handled_takeTurn hd call locker key₀ mode deadline
    by_cases hkey : key₀ = key
    · subst hkey
      exact Or.inl ⟨locker, mode, hasks, hperform ▸ hhandled⟩
    · rw [hperform, hother key hkey]
      exact Or.inr (List.Sublist.refl _)
  cases a with
  | lock call locker key₀ mode =>
      by_cases hwaits : s.isWaiting call = true
      · simp only [perform, if_pos hwaits]
        exact Or.inr (List.Sublist.refl _)
      · exact hturn call locker key₀ mode (Lockers.deadline s.lockers locker)
          (if_neg hwaits) (if_neg hwaits)
  | resume call =>
      cases hdue : s.dueCall? call with
      | none =>
          simp only [perform, hdue]
          exact Or.inr (List.Sublist.refl _)
      | some c =>
          have hwaits : s.waiting.get? call = some c := (Option.filter_eq_some_iff.mp hdue).1
          refine hturn call c.locker c.key c.mode c.deadline (by simp [asks, hdue]) ?_
          simp [perform, hdue, resume, hwaits]
  | tryLock locker key₀ mode =>
      rcases htry : s.table.tryLock s.now locker key₀ mode s.lockers with ⟨answer, lockers, table⟩
      have heq : s.perform (.tryLock locker key₀ mode) = { s with lockers, table } := tryLock_eq htry
      rw [heq]
      rcases LockTable.tryLock_cases htry with ⟨-, rfl⟩ | ⟨verdict, hattempt⟩
      · exact Or.inr (List.Sublist.refl _)
      · by_cases hkey : key₀ = key
        · subst hkey
          exact Or.inl ⟨locker, mode, rfl, (LockTable.attempt_spec .any hd hattempt).toHandled⟩
        · rw [LockTable.requests_attempt_of_ne hattempt hkey]
          exact Or.inr (List.Sublist.refl _)
  | release locker key₀ =>
      refine Or.inr ?_
      show (LockTable.requests (s.table.release locker key₀).2 key).Sublist _
      rw [LockTable.requests_release]
      split
      · rename_i hkey
        rw [hkey]
        exact List.eraseP_sublist
      · exact List.Sublist.refl _
  | releaseAll locker =>
      refine Or.inr ?_
      show (LockTable.requests (s.table.releaseAll locker) key).Sublist _
      rw [LockTable.requests_releaseAll]
      exact List.eraseP_sublist
  | change f => exact Or.inr (List.Sublist.refl _)
  | tick n => exact Or.inr (List.Sublist.refl _)

/-- No action gives a locker a second entry on a key. -/
theorem distinct_perform (hd : s.table.Distinct) (a : LockAction K L σ) :
    (s.perform a).table.Distinct := by
  intro key
  rcases perform_cases hd a key with ⟨_, _, _, hhandled⟩ | hsub
  · exact hhandled.distinct
  · exact (hd key).sublist hsub

theorem distinct_run (hd : s.table.Distinct) (actions : List (LockAction K L σ)) :
    (s.run actions).table.Distinct := by
  induction actions generalizing s with
  | nil => exact hd
  | cons a rest ih => exact ih (distinct_perform hd a)

/-! ### Who is queued and who waits -/

omit [DecidableEq L] [Lockers σ L] in
/-- Whoever is queued on a key has a call that waits for it. -/
def Backed (s : LockSession K L σ) : Prop :=
  ∀ key, ∀ e ∈ s.table.requests key, e.granted = false →
    ∃ call c, s.waiting.get? call = some c ∧ c.locker = e.owner ∧ c.key = key

omit [DecidableEq L] [Lockers σ L] in
theorem Backed.mono {s' : LockSession K L σ} (h : s.Backed) (hwaiting : s'.waiting = s.waiting)
    (hqueued : ∀ key, ∀ e ∈ s'.table.requests key, e.granted = false → e ∈ s.table.requests key) :
    s'.Backed := by
  intro key e he hqueue
  rw [hwaiting]
  exact h key e (hqueued key e he hqueue) hqueue

/-- A call that takes a turn is a new one, or one that has waited for the same key. -/
theorem Backed.takeTurn (hd : s.table.Distinct) (h : s.Backed) {call : Nat} {locker : L} {key : K}
    (mode : LockMode) (deadline : Nat)
    (hsame : ∀ c, s.waiting.get? call = some c → c.locker = locker ∧ c.key = key) :
    (s.takeTurn call locker key mode deadline).2.Backed := by
  rcases hturn : s.table.turn s.now deadline locker key mode s.lockers with ⟨turn, lockers, table⟩
  obtain ⟨waiting, heq, hwaiting⟩ := takeTurn_eq call hturn
  have hspec := LockTable.turn_spec .any hd hturn
  have hother := fun key' (hkey : key ≠ key') => LockTable.requests_turn_of_ne hturn hkey
  rw [heq]
  intro key' e he hqueue
  -- Whoever was queued before has a waiting call, which is another one than the call of the turn.
  have hold : e ∈ s.table.requests key' → (key = key' → e.owner ≠ locker) →
      ∃ call' c, waiting.get? call' = some c ∧ c.locker = e.owner ∧ c.key = key' := by
    intro hin hne
    obtain ⟨call', c, hc, howner, hkey⟩ := h key' e hin hqueue
    refine ⟨call', c, (hwaiting call' c).mpr (Or.inl ⟨fun hcall => ?_, hc⟩), howner, hkey⟩
    subst hcall
    obtain ⟨hlocker, hkey'⟩ := hsame c hc
    exact hne (hkey'.symm.trans hkey) (howner.symm.trans hlocker)
  by_cases hkey : key = key'
  · subst hkey
    by_cases howner : e.owner = locker
    · obtain ⟨⟨signal, hwaits⟩, -⟩ := hspec.queued e he howner hqueue
      exact ⟨call, _, (hwaiting call _).mpr (Or.inr ⟨rfl, signal, hwaits, rfl⟩), howner.symm, rfl⟩
    · exact hold (hspec.others e he howner) fun _ => howner
  · refine hold ?_ fun hc => absurd hc hkey
    rw [← hother key' hkey]
    exact he

theorem Backed.perform (hd : s.table.Distinct) (h : s.Backed) (a : LockAction K L σ) :
    (s.perform a).Backed := by
  have hperformed := performed s a
  generalize s.perform a = s' at hperformed ⊢
  cases hperformed with
  | busy => exact h
  | begun hfree =>
      refine h.takeTurn hd _ _ fun c hc => ?_
      rw [hfree] at hc
      exact absurd hc (by simp)
  | early => exact h
  | resumed _ hwaits =>
      refine h.takeTurn hd _ _ fun c hc => ?_
      rw [hwaits] at hc
      cases hc
      exact ⟨rfl, rfl⟩
  | @tried locker key mode =>
      rcases htry : s.table.tryLock s.now locker key mode s.lockers with ⟨answer, lockers, table⟩
      rw [tryLock_eq htry]
      rcases LockTable.tryLock_cases htry with ⟨rfl, rfl⟩ | ⟨verdict, hattempt⟩
      · exact h
      · refine h.mono rfl fun key' e he hqueue => ?_
        by_cases hkey : key = key'
        · subst hkey
          -- An attempt that does not wait queues nobody.
          have hspec := LockTable.attempt_spec .any hd hattempt
          by_cases howner : e.owner = locker
          · exact (hspec.queued e he howner hqueue).2.resolve_right fun hc => absurd hc.1 (by simp)
          · exact hspec.others e he howner
        · rw [← LockTable.requests_attempt_of_ne hattempt hkey]
          exact he
  | @released locker key =>
      refine h.mono rfl fun key' e he _ => ?_
      have heq := LockTable.requests_release s.table locker key key'
      by_cases hkey : key = key'
      · subst hkey
        exact List.eraseP_subset ((heq.trans (if_pos rfl)) ▸ he)
      · exact (heq.trans (if_neg hkey)) ▸ he
  | @releasedAll locker =>
      refine h.mono rfl fun key e he _ => ?_
      exact List.eraseP_subset ((LockTable.requests_releaseAll s.table locker key) ▸ he)
  | changed => exact h
  | ticked => exact h

omit [DecidableEq L] [Lockers σ L] in
theorem backed_new (now : Nat) (lockers : σ) (shards : Nat) :
    (new now lockers shards : LockSession K L σ).Backed := by
  intro key e he
  unfold LockTable.requests at he
  rw [new, LockTable.entries_ofShards] at he
  exact absurd he List.not_mem_nil

theorem backed_run (hd : s.table.Distinct) (h : s.Backed) (actions : List (LockAction K L σ)) :
    (s.run actions).Backed := by
  induction actions generalizing s with
  | nil => exact h
  | cons a rest ih => exact ih (distinct_perform hd a) (h.perform hd a)

end LockSession

end ObjectStore
