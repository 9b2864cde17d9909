/-
Nobody is asked to give up without a reason.

`LockSession.wounds` are those whom one action of a run asks.  `LockSession.wounds_justified` says
who they are: holders of the key that the action asks for, whose time has run out or whom the
asking locker has precedence over; and that exactly those who give up lose what they hold there.
It follows that nobody who has precedence over all others has to give up for somebody's request, and
that only a refusal can keep such a locker from a key.
-/
import Mathlib.Data.List.Induction
import ObjectStore.Proofs.Locking.Record
import ObjectStore.Proofs.Locking.Stranded

namespace ObjectStore

open LockEntry (left mem_left Warrants)

namespace LockAction

variable {K L σ : Type}

/-- The same action where a record is kept. -/
def recorded : LockAction K L σ → LockAction K L (Recorded σ L)
  | .lock call locker key mode => .lock call locker key mode
  | .resume call => .resume call
  | .tryLock locker key mode => .tryLock locker key mode
  | .release locker key => .release locker key
  | .releaseAll locker => .releaseAll locker
  | .change f => .change fun r => ⟨f r.lockers, r.wounds⟩
  | .tick n => .tick n

/-- The locker that begins to ask for a key. -/
def asker? : LockAction K L σ → Option L
  | .lock _ locker _ _ => some locker
  | .tryLock locker _ _ => some locker
  | _ => none

/-- Whether a request that is blocked is queued. -/
def waits : LockAction K L σ → Bool
  | .tryLock _ _ _ => false
  | _ => true

end LockAction

namespace LockSession

variable {K L σ : Type}

/-- The session with a record, which is empty. -/
def recorded (s : LockSession K L σ) : LockSession K L (Recorded σ L) :=
  ⟨s.now, ⟨s.lockers, []⟩, s.table, s.waiting⟩

/-- The session without the record. -/
def forget (r : LockSession K L (Recorded σ L)) : LockSession K L σ :=
  ⟨r.now, r.lockers.lockers, r.table, r.waiting⟩

variable [DecidableEq K] [Hashable K] [DecidableEq L] [Lockers σ L]

theorem takeTurn_forget (call : Nat) (locker : L) (key : K) (mode : LockMode) (deadline : Nat)
    (r : LockSession K L (Recorded σ L)) :
    (r.forget.takeTurn call locker key mode deadline).2 =
      (r.takeTurn call locker key mode deadline).2.forget := by
  have hturn := LockTable.turn_forget r.now deadline locker key mode r.lockers r.table
  unfold takeTurn
  rw [show r.forget.table.turn r.forget.now deadline locker key mode r.forget.lockers =
    r.table.turn r.now deadline locker key mode r.lockers.lockers from rfl, hturn]
  rcases r.table.turn r.now deadline locker key mode r.lockers with ⟨_ | _ | _, r', t'⟩ <;> rfl

theorem tryLock_forget (locker : L) (key : K) (mode : LockMode)
    (r : LockSession K L (Recorded σ L)) :
    (r.forget.tryLock locker key mode).2 = (r.tryLock locker key mode).2.forget := by
  have htry := LockTable.tryLock_forget r.now locker key mode r.lockers r.table
  unfold tryLock
  rw [show r.forget.table.tryLock r.forget.now locker key mode r.forget.lockers =
    r.table.tryLock r.now locker key mode r.lockers.lockers from rfl, htry]
  rfl

/-- An action comes to the same with a record as without. -/
theorem perform_forget (r : LockSession K L (Recorded σ L)) (a : LockAction K L σ) :
    r.forget.perform a = (r.perform a.recorded).forget := by
  have hwaits : ∀ call, r.forget.isWaiting call = r.isWaiting call := fun _ => rfl
  have hdue : ∀ call, r.forget.dueCall? call = r.dueCall? call := fun _ => rfl
  cases a with
  | lock call locker key mode =>
      simp only [perform, LockAction.recorded, hwaits, lock]
      split
      · rfl
      · exact takeTurn_forget call locker key mode _ r
  | resume call =>
      simp only [perform, LockAction.recorded, hdue, resume]
      split
      · rw [show r.forget.waiting.get? call = r.waiting.get? call from rfl]
        cases r.waiting.get? call with
        | none => rfl
        | some c => exact takeTurn_forget call c.locker c.key c.mode c.deadline r
      · rfl
  | tryLock locker key mode => exact tryLock_forget locker key mode r
  | release locker key => rfl
  | releaseAll locker => rfl
  | change f => rfl
  | tick n => rfl

/-- **Keeping a record changes nothing** about a run. -/
theorem run_forget (r : LockSession K L (Recorded σ L)) (actions : List (LockAction K L σ)) :
    r.forget.run actions = (r.run (actions.map .recorded)).forget := by
  induction actions generalizing r with
  | nil => rfl
  | cons a rest ih =>
      show (r.forget.perform a).run rest = _
      rw [perform_forget, ih]
      rfl

/-- Those whom an action asks to give up, in order. -/
def wounds (a : LockAction K L σ) (s : LockSession K L σ) : List (Wound L) :=
  (s.recorded.perform a.recorded).lockers.wounds

/-- How the attempt of an action ends, if it makes one. -/
def verdict? (a : LockAction K L σ) (s : LockSession K L σ) : Option (Verdict L) :=
  (s.asks a).bind fun (locker, key, mode) =>
    if Lockers.isActive s.lockers locker then
      some (s.table.attempt s.now locker key mode a.waits s.lockers).1
    else none

variable {s : LockSession K L σ} {a : LockAction K L σ} {locker : L} {key : K} {mode : LockMode}

theorem lockers_takeTurn (call : Nat) (locker : L) (key : K) (mode : LockMode)
    (deadline : Nat) (s : LockSession K L σ) :
    (s.takeTurn call locker key mode deadline).2.lockers =
      (s.table.turn s.now deadline locker key mode s.lockers).2.1 := by
  unfold takeTurn
  rcases s.table.turn s.now deadline locker key mode s.lockers with ⟨_ | _ | _, s', t'⟩ <;> rfl

theorem wounds_eq_nil (h : s.asks a = none) : s.wounds a = [] := by
  have hwaits : ∀ call, s.recorded.isWaiting call = s.isWaiting call := fun _ => rfl
  have hdue : ∀ call, s.recorded.dueCall? call = s.dueCall? call := fun _ => rfl
  unfold wounds
  cases a with
  | lock call locker key mode =>
      have hbusy : s.isWaiting call = true := by
        by_contra hfree
        simp [asks, hfree] at h
      simp only [LockAction.recorded, perform, hwaits, hbusy, if_true]
      rfl
  | resume call =>
      have hnone : s.dueCall? call = none := Option.map_eq_none_iff.mp h
      simp only [LockAction.recorded, perform, hdue, hnone]
      rfl
  | tryLock locker key mode => exact absurd h (by simp [asks])
  | release locker key => rfl
  | releaseAll locker => rfl
  | change f => rfl
  | tick n => rfl

/-- A key is asked for in a turn of a call or in an attempt that does not wait. -/
theorem asks_cases (h : s.asks a = some (locker, key, mode)) :
    (∃ call deadline, a.waits = true ∧
      s.perform a = (s.takeTurn call locker key mode deadline).2 ∧
      s.recorded.perform a.recorded = (s.recorded.takeTurn call locker key mode deadline).2) ∨
    a = .tryLock locker key mode := by
  have hdue : ∀ call, s.recorded.dueCall? call = s.dueCall? call := fun _ => rfl
  have hperformed := performed s a
  generalize s.perform a = s' at hperformed
  cases hperformed with
  | busy hwaits => simp [asks, isWaiting, FinMap.contains, hwaits] at h
  | @begun call _ _ _ hfree =>
      have hidle : s.recorded.isWaiting call = false := by
        simp [recorded, isWaiting, FinMap.contains, hfree]
      simp only [asks, isWaiting, FinMap.contains, hfree, Option.isSome_none, Bool.false_eq_true,
        if_false, Option.some.injEq, Prod.mk.injEq] at h
      obtain ⟨rfl, rfl, rfl⟩ := h
      refine Or.inl ⟨_, _, rfl, rfl, ?_⟩
      simp only [LockAction.recorded, perform, hidle]
      rfl
  | early hnone => simp [asks, hnone] at h
  | @resumed call c hsome hwaits =>
      have hwaits' : s.recorded.waiting.get? call = some c := hwaits
      simp only [asks, hsome, Option.map_some, Option.some.injEq, Prod.mk.injEq] at h
      obtain ⟨rfl, rfl, rfl⟩ := h
      refine Or.inl ⟨_, _, rfl, rfl, ?_⟩
      simp only [LockAction.recorded, perform, hdue, hsome, resume, hwaits']
      rfl
  | tried =>
      simp only [asks, Option.some.injEq, Prod.mk.injEq] at h
      obtain ⟨rfl, rfl, rfl⟩ := h
      exact Or.inr rfl
  | _ => exact absurd h (by simp [asks])

theorem wounds_eq (h : s.asks a = some (locker, key, mode)) :
    s.wounds a = if Lockers.isActive s.lockers locker then
      s.table.wounds s.now locker key mode a.waits s.lockers else [] := by
  unfold wounds
  rcases asks_cases h with ⟨call, deadline, hwaits, -, hrecorded⟩ | rfl
  · rw [hrecorded, lockers_takeTurn, hwaits]
    exact LockTable.turnWounds_eq
  · show (s.table.tryLock s.now locker key mode s.recorded.lockers).2.1.wounds = _
    rw [LockTable.lockers_tryLock_eq]
    show (if Lockers.isActive s.lockers locker = true then _ else _ : Recorded σ L).wounds = _
    split <;> rfl

theorem asked_perform (hage : Lockers.Ageless σ) (hd : s.table.Distinct)
    (h : s.asks a = some (locker, key, mode)) :
    LockEntry.Asked s.now (Lockers.rank s.lockers locker) locker mode (s.table.requests key)
      (s.wounds a) ((s.perform a).table.requests key) := by
  rw [wounds_eq h]
  rcases asks_cases h with ⟨call, deadline, hwaits, hperform, -⟩ | rfl
  · rcases hturn : s.table.turn s.now deadline locker key mode s.lockers with ⟨turn, s', t'⟩
    obtain ⟨waiting, heq, -⟩ := takeTurn_eq call hturn
    rw [hperform, heq, hwaits]
    have hasked := (LockTable.asked_turn hage hd hturn).1
    rwa [LockTable.turnWounds_eq] at hasked
  · rcases htry : s.table.tryLock s.now locker key mode s.lockers with ⟨answer, s', t'⟩
    have heq : s.perform (.tryLock locker key mode) = { s with lockers := s', table := t' } :=
      tryLock_eq htry
    rw [heq]
    unfold LockTable.tryLock at htry
    split at htry
    · rename_i hactive
      rw [if_pos hactive]
      rcases hattempt : s.table.attempt s.now locker key mode false s.lockers with ⟨v, s₁, t₁⟩
      rw [hattempt] at htry
      obtain ⟨rfl, rfl⟩ : s₁ = s' ∧ t₁ = t' := by
        cases v <;> exact ⟨congrArg (·.2.1) htry, congrArg (·.2.2) htry⟩
      exact (LockTable.asked_attempt hage hd hattempt).1
    · rename_i hinactive
      rw [if_neg hinactive]
      obtain rfl : s.table = t' := congrArg (·.2.2) htry
      exact .nil fun _ _ => Iff.rfl

/-- A locker that blocks an attempt has precedence, or holds the key and was asked and refused. -/
theorem refused_of_blocked (hage : Lockers.Ageless σ) (hd : s.table.Distinct)
    (h : s.asks a = some (locker, key, mode)) {holder : L}
    (hblocked : s.verdict? a = some (.blocked holder)) :
    ∃ e ∈ s.table.requests key, e.owner = holder ∧ e.owner ≠ locker ∧
      (e.rank.before (Lockers.rank s.lockers locker) = true ∨
        ∃ w ∈ s.wounds a, w.target = holder ∧ w.reason = .outranked locker ∧ w.gaveUp = false) := by
  rw [wounds_eq h]
  simp only [verdict?, h, Option.bind_some] at hblocked
  split at hblocked
  · rename_i hactive
    rcases hattempt : s.table.attempt s.now locker key mode a.waits s.lockers with ⟨verdict, s', t'⟩
    obtain ⟨hasked, -, hcause⟩ := LockTable.asked_attempt hage hd hattempt
    rw [hattempt] at hblocked
    obtain ⟨e, he, howner, hne, -, hcause⟩ := hcause holder (Option.some.inj hblocked)
    rw [if_pos hactive]
    exact ⟨e, (mem_left.mp ((hasked.others e hne).mp he)).1, howner, hne,
      hcause.imp_right And.right⟩
  · exact absurd hblocked (by simp)

/-! ### Those who take part -/

/-- The lockers that ask for keys in a run. -/
def participants (actions : List (LockAction K L σ)) : List L :=
  actions.filterMap LockAction.asker?

/-- All requests and all waiting calls are those of some lockers. -/
structure Within (among : List L) (s : LockSession K L σ) : Prop where
  owners : ∀ key, ∀ e ∈ s.table.requests key, e.owner ∈ among
  callers : ∀ call c, s.waiting.get? call = some c → c.locker ∈ among

omit [DecidableEq L] [Lockers σ L] in
theorem Within.asker {among : List L} (h : s.Within among)
    (hasker : ∀ l, a.asker? = some l → l ∈ among) (hasks : s.asks a = some (locker, key, mode)) :
    locker ∈ among := by
  cases a with
  | lock call l key' mode' =>
      simp only [asks] at hasks
      split at hasks
      · exact absurd hasks (by simp)
      · cases hasks
        exact hasker locker rfl
  | resume call =>
      obtain ⟨c, hdue, hc⟩ := Option.map_eq_some_iff.mp hasks
      cases hc
      exact h.callers call c (Option.filter_eq_some_iff.mp hdue).1
  | tryLock l key' mode' =>
      cases hasks
      exact hasker locker rfl
  | _ => exact absurd hasks (by simp [asks])

theorem waiting_perform {call : Nat} {c : LockCall K L}
    (h : (s.perform a).waiting.get? call = some c) :
    s.waiting.get? call = some c ∨ s.asks a = some (c.locker, c.key, c.mode) := by
  cases hasks : s.asks a with
  | none =>
      refine Or.inl ?_
      have hperformed := performed s a
      generalize s.perform a = s' at h hperformed
      cases hperformed with
      | begun hfree => simp [asks, isWaiting, FinMap.contains, hfree] at hasks
      | resumed hdue => simp [asks, hdue] at hasks
      | _ => exact h
  | some request =>
      obtain ⟨locker, key, mode⟩ := request
      rcases asks_cases hasks with ⟨call', deadline, -, hperform, -⟩ | rfl
      · rcases hturn : s.table.turn s.now deadline locker key mode s.lockers with ⟨turn, s', t'⟩
        obtain ⟨waiting, heq, hwaiting⟩ := takeTurn_eq call' hturn
        rw [hperform, heq] at h
        rcases (hwaiting call c).mp h with ⟨-, hold⟩ | ⟨-, signal, -, rfl⟩
        · exact Or.inl hold
        · exact Or.inr rfl
      · exact Or.inl h

theorem Within.perform {among : List L} (h : s.Within among) (hd : s.table.Distinct)
    (hasker : ∀ l, a.asker? = some l → l ∈ among) : (s.perform a).Within among where
  owners := by
    intro key e he
    rcases perform_cases hd a key with ⟨locker, mode, hasks, hhandled⟩ | hsub
    · by_cases howner : e.owner = locker
      · rw [howner]
        exact h.asker hasker hasks
      · exact h.owners key e (hhandled.others e he howner)
    · exact h.owners key e (hsub.subset he)
  callers := by
    intro call c hc
    rcases waiting_perform hc with hold | hasks
    · exact h.callers call c hold
    · exact h.asker hasker hasks

omit [DecidableEq L] [Lockers σ L] in
theorem requests_new (now : Nat) (lockers : σ) (shards : Nat) (key : K) :
    (new now lockers shards : LockSession K L σ).table.requests key = [] := by
  unfold LockTable.requests
  rw [show (new now lockers shards : LockSession K L σ).table = LockTable.ofShards shards from rfl,
    LockTable.entries_ofShards]
  rfl

theorem within_run (now : Nat) (lockers : σ) (shards : Nat) {among : List L}
    {actions : List (LockAction K L σ)} (h : ∀ l ∈ participants actions, l ∈ among) :
    ((new now lockers shards).run actions).Within among := by
  -- By induction on the length of the run, from its last action.
  induction actions using List.reverseRecOn with
  | nil =>
      refine ⟨fun key e he => ?_, fun call c hc => absurd hc (by simp [run, new])⟩
      have hnone : e ∈ (new now lockers shards : LockSession K L σ).table.requests key := he
      rw [requests_new] at hnone
      exact absurd hnone List.not_mem_nil
  | append_singleton before a ih =>
      simp only [participants, List.filterMap_append, List.mem_append] at h
      rw [run_concat]
      refine (ih fun l hl => h l (Or.inl hl)).perform
        (distinct_run (LockTable.distinct_ofShards shards) before) fun l hl => h l (Or.inr ?_)
      simp [hl]

theorem rank_perform (hage : Lockers.Ageless σ) (hkeeps : a.KeepsRanks) (l : L) :
    Lockers.rank (s.perform a).lockers l = Lockers.rank s.lockers l := by
  have hturn : ∀ call locker key mode deadline,
      Lockers.rank (s.takeTurn call locker key mode deadline).2.lockers l =
        Lockers.rank s.lockers l := by
    intro call locker key mode deadline
    rw [lockers_takeTurn]
    exact LockTable.rank_turn hage rfl l
  have hperformed := performed s a
  generalize s.perform a = s' at hperformed
  cases hperformed with
  | begun => exact hturn _ _ _ _ _
  | resumed => exact hturn _ _ _ _ _
  | @tried locker key mode =>
      rcases htry : s.table.tryLock s.now locker key mode s.lockers with ⟨answer, s₁, t₁⟩
      rw [tryLock_eq htry]
      rcases LockTable.tryLock_cases htry with ⟨rfl, -⟩ | ⟨verdict, hattempt⟩
      · rfl
      · exact LockTable.rank_attempt hage hattempt l
  | changed => exact hkeeps s.lockers l
  | _ => rfl

/-- Nobody changes its rank in the course of a run. -/
theorem rank_run (hage : Lockers.Ageless σ) (l : L) {actions : List (LockAction K L σ)}
    (hkeeps : ∀ a ∈ actions, a.KeepsRanks) :
    Lockers.rank (s.run actions).lockers l = Lockers.rank s.lockers l := by
  induction actions generalizing s with
  | nil => rfl
  | cons a rest ih =>
      refine (ih fun b hb => hkeeps b (List.mem_cons_of_mem a hb)).trans ?_
      exact rank_perform hage (hkeeps a List.mem_cons_self) l

/-! ### Justice -/

/-- Whoever is asked to give up still holds the key that is asked for, and its time has run out or
the asking locker has precedence. -/
theorem reason_of_wounds (hage : Lockers.Ageless σ) (h : s.Attended) {among : List L}
    (hwithin : s.Within among) (hasker : ∀ l, a.asker? = some l → l ∈ among)
    (hranks : ∀ l ∈ among, ∀ l' ∈ among,
      Lockers.rank s.lockers l = Lockers.rank s.lockers l' → l = l')
    (before : List (Wound L)) (w : Wound L) (after : List (Wound L))
    (heq : s.wounds a = before ++ w :: after) :
    ∃ locker key mode, s.asks a = some (locker, key, mode) ∧ w.target ≠ locker ∧
      ∃ e ∈ left before (s.table.requests key), e.owner = w.target ∧ e.granted = true ∧
        (w.reason = .expired ∧ e.deadline < s.now ∨
          w.reason = .outranked locker ∧ mode.conflictsWith e.mode = true ∧
            (Lockers.rank s.lockers locker).before (Lockers.rank s.lockers w.target) = true) := by
  cases hasks : s.asks a with
  | none =>
      rw [wounds_eq_nil hasks] at heq
      exact absurd heq (by simp)
  | some request =>
      obtain ⟨locker, key, mode⟩ := request
      obtain ⟨e, he, hwarrants⟩ := (asked_perform hage h.distinct hasks).warranted _ _ _ heq
      have hin := (mem_left.mp he).1
      have hne : w.target ≠ locker := hwarrants.owner ▸ hwarrants.other
      refine ⟨locker, key, mode, rfl, hne, e, he, hwarrants.owner, hwarrants.granted, ?_⟩
      refine hwarrants.cause.imp_right ?_
      rintro ⟨hreason, hconflict, hbefore⟩
      refine ⟨hreason, hconflict, ?_⟩
      -- Ranks differ, so that not to be preceded is to precede.
      rw [h.ranked key e hin, hwarrants.owner] at hbefore
      refine Rank.before_total (fun hsame => hne ?_) hbefore
      exact hranks _ (hwarrants.owner ▸ hwithin.owners key e hin) _
        (hwithin.asker hasker hasks) hsame

/--
**Nobody is asked to give up without a reason, and whoever gives up loses its entry.**  An action is
the next one of a run, with an empty table at the start and lockers of different ranks.  Whoever it
asks to give up still holds the key that the action asks for, and is not its locker; either the
recorded deadline has passed, or the action's locker has precedence and asks for a mode that
conflicts.  Of the requests of others exactly those disappear whose owners give up.  A locker that
has precedence over all others is never asked for somebody's request, and what blocks its own is a
locker that has just refused.
-/
theorem wounds_justified (hage : Lockers.Ageless σ) (now : Nat) (lockers : σ) (shards : Nat)
    {actions : List (LockAction K L σ)} (hkeeps : ∀ b ∈ actions, b.KeepsRanks)
    (hranks : ∀ l ∈ participants (actions ++ [a]), ∀ l' ∈ participants (actions ++ [a]),
      Lockers.rank lockers l = Lockers.rank lockers l' → l = l')
    (hs : s = (new now lockers shards).run actions) :
    (∀ before w after, s.wounds a = before ++ w :: after →
      ∃ locker key mode, s.asks a = some (locker, key, mode) ∧ w.target ≠ locker ∧
        ∃ e ∈ left before (s.table.requests key), e.owner = w.target ∧ e.granted = true ∧
          (w.reason = .expired ∧ e.deadline < s.now ∨
            w.reason = .outranked locker ∧ mode.conflictsWith e.mode = true ∧
              (Lockers.rank lockers locker).before (Lockers.rank lockers w.target) = true)) ∧
    (∀ locker key mode, s.asks a = some (locker, key, mode) → ∀ e, e.owner ≠ locker →
      (e ∈ (s.perform a).table.requests key ↔
        e ∈ s.table.requests key ∧ ∀ w ∈ s.wounds a, w.target = e.owner → w.gaveUp = false)) ∧
    ∀ l, (∀ l' ∈ participants (actions ++ [a]), l' ≠ l →
        (Lockers.rank lockers l).before (Lockers.rank lockers l') = true) →
      (∀ w ∈ s.wounds a, w.target = l → w.reason = .expired) ∧
      ∀ key mode holder, s.asks a = some (l, key, mode) → s.verdict? a = some (.blocked holder) →
        ∃ w ∈ s.wounds a, w.target = holder ∧ w.reason = .outranked l ∧ w.gaveUp = false := by
  have hattended := attended_run hage now lockers shards hkeeps
  have hwithin : s.Within (participants (actions ++ [a])) := by
    rw [hs]
    refine within_run now lockers shards fun l hl => ?_
    simp only [participants, List.filterMap_append, List.mem_append]
    exact Or.inl hl
  have hrank : ∀ l, Lockers.rank s.lockers l = Lockers.rank lockers l := by
    intro l
    rw [hs]
    exact rank_run hage l hkeeps
  rw [← hs] at hattended
  have hasker : ∀ {locker key mode}, s.asks a = some (locker, key, mode) →
      locker ∈ participants (actions ++ [a]) := by
    refine fun hasks => hwithin.asker (fun l hl => ?_) hasks
    simp [participants, hl]
  have hjust := fun before w after heq =>
    @reason_of_wounds _ _ _ _ _ _ _ s a hage hattended _ hwithin (fun l hl => by
      simp [participants, hl]) (by simpa only [hrank] using hranks) before w after heq
  simp only [hrank] at hjust
  refine ⟨hjust, fun locker key mode hasks e hne => ?_, fun l heldest => ⟨?_, ?_⟩⟩
  · exact ((asked_perform hage hattended.distinct hasks).others e hne).trans mem_left
  · rintro w hw rfl
    obtain ⟨before, after, heq⟩ := List.append_of_mem hw
    obtain ⟨locker, key, mode, hasks, hne, _, _, _, _, hcause⟩ := hjust before w after heq
    rcases hcause with ⟨hreason, -⟩ | ⟨-, -, hbefore⟩
    · exact hreason
    · have hafter := Rank.before_asymm (heldest locker (hasker hasks) (Ne.symm hne))
      rw [hbefore] at hafter
      exact absurd hafter (by simp)
  · intro key mode holder hasks hblocked
    obtain ⟨e, he, howner, hne, hcause⟩ := refused_of_blocked hage hattended.distinct hasks hblocked
    refine hcause.resolve_left fun hbefore => ?_
    rw [hattended.ranked key e he, hrank, hrank,
      Rank.before_asymm (heldest e.owner (hwithin.owners key e he) hne)] at hbefore
    exact absurd hbefore (by simp)

/-- The younger writes a key. -/
def youngerWrites : List (LockAction String PartyId Parties) := [.lock 2 2 "k" .write]

/-- The elder wants the key too: it has precedence over the younger, who gives up and loses it. -/
theorem wounds_justified_elderWants :
    (Lockers.rank elderAndYounger 1).before (Lockers.rank elderAndYounger 2) = true ∧
    ∀ e ∈ (((new Party.now elderAndYounger 1).run youngerWrites).perform
      (.lock 1 1 "k" .write)).table.requests "k", e.owner ≠ 2 := by
  have hkeeps : ∀ b ∈ youngerWrites, b.KeepsRanks := by
    intro b hb
    rw [List.mem_singleton.mp hb]
    trivial
  have hwounds : ((new Party.now elderAndYounger 1).run youngerWrites).wounds (.lock 1 1 "k" .write) =
      [⟨2, .outranked 1, true⟩] := by
    decide
  obtain ⟨hjust, hothers, -⟩ := @wounds_justified _ _ _ _ _ _ _ _ (.lock 1 1 "k" .write)
    Parties.ageless Party.now elderAndYounger 1 youngerWrites hkeeps (by decide) rfl
  obtain ⟨locker, key, mode, hasks, -, _, _, -, -, hcause⟩ := hjust [] _ [] hwounds
  cases hasks
  obtain ⟨-, -, hbefore⟩ := hcause.resolve_left fun h => absurd h.1 (by simp)
  refine ⟨hbefore, fun e he howner => ?_⟩
  have hne : e.owner ≠ 1 := by rw [howner]; decide
  have hkept := ((hothers 1 "k" .write rfl e hne).mp he).2
  rw [hwounds] at hkept
  exact absurd (hkept _ (List.mem_singleton_self _) howner.symm) (by simp)

end LockSession
end ObjectStore
