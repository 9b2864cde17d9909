/-
Runs of one reporter that takes locks.

A report is a lock call, and goes by the steps of its turns.  Any transaction may take a step between
any two steps of others: it may be wounded or aborted after it was found to be active and before it
makes its attempt, or describe a key while a call is on its way to say that it has failed.  An end has
two parts as well: the locks go, and then the descriptions.

`LockTable.StepOutcome` lists what a step of a lock call can come to.
-/
import ObjectStore.Access.Locking
import ObjectStore.Proofs.Locking.Waiting
import ObjectStore.Proofs.Transaction.Age

namespace ObjectStore

/-! ### The steps of a lock call -/

namespace LockTable

variable {K L σ : Type} [Hashable K] [DecidableEq K] [DecidableEq L] [Lockers σ L]
variable {t t' : LockTable K L} {s s' : σ} {now deadline : Nat} {locker : L} {key key' : K}
variable {mode : LockMode} {stage stage' : LockStage L}

/-- The ways in which one step of a call can go. -/
inductive StepOutcome (now deadline : Nat) (locker : L) (key : K) (mode : LockMode) (s : σ)
    (t : LockTable K L) : LockStage L → LockStage L → σ → LockTable K L → Prop where
  | active (h : Lockers.isActive s locker = true) :
    StepOutcome now deadline locker key mode s t .check .attempt s t
  | inactive (h : Lockers.isActive s locker = false) :
    StepOutcome now deadline locker key mode s t .check (.leaving .notActive) s t
  | granted {s' : σ} {t' : LockTable K L}
    (h : t.attempt now locker key mode true s = (.granted, s', t')) :
    StepOutcome now deadline locker key mode s t .attempt (.ended .granted) s'
      { t' with parked := t'.parked.erase locker }
  | blocked {s' : σ} {t' : LockTable K L} {holder : L}
    (h : t.attempt now locker key mode true s = (.blocked holder, s', t')) :
    StepOutcome now deadline locker key mode s t .attempt (.parked t'.nextSignal holder) s'
      (t'.park key locker holder).2
  | late {signal : Signal} {holder : L} (h : deadline ≤ now) :
    StepOutcome now deadline locker key mode s t (.parked signal holder)
      (.leaving (.timeout (some holder))) s t
  | waits {signal : Signal} {holder : L} (h : now < deadline) :
    StepOutcome now deadline locker key mode s t (.parked signal holder)
      (.ended (.waiting signal)) s t
  | leaves {error : LockError L} :
    StepOutcome now deadline locker key mode s t (.leaving error) (.ended (.failed error)) s
      (t.abandon locker key)
  | rests {turn : LockTurn L} :
    StepOutcome now deadline locker key mode s t (.ended turn) (.ended turn) s t

theorem step_outcome
    (h : step now deadline locker key mode (stage, s, t) = (stage', s', t')) :
    StepOutcome now deadline locker key mode s t stage stage' s' t' := by
  cases stage with
  | check =>
      cases hactive : Lockers.isActive s locker with
      | true =>
          simp only [step, hactive, if_true] at h
          cases h
          exact .active hactive
      | false =>
          simp only [step, hactive, Bool.false_eq_true, if_false] at h
          cases h
          exact .inactive hactive
  | attempt =>
      rcases hattempt : t.attempt now locker key mode true s with ⟨_ | holder, s₁, t₁⟩
      · simp only [step, hattempt] at h
        cases h
        exact .granted hattempt
      · simp only [step, hattempt] at h
        cases h
        exact .blocked hattempt
  | parked signal holder =>
      by_cases hlate : deadline ≤ now
      · simp only [step, if_pos hlate] at h
        cases h
        exact .late hlate
      · simp only [step, if_neg hlate] at h
        cases h
        exact .waits (Nat.lt_of_not_le hlate)
  | leaving error =>
      cases h
      exact .leaves
  | ended turn =>
      cases h
      exact .rests

/-- Nobody gets an entry when a locker gives up waiting. -/
theorem sublist_abandon (t : LockTable K L) (locker : L) (key key' : K) :
    ((t.abandon locker key).requests key').Sublist (t.requests key') := by
  by_cases hkey : key = key'
  · subst hkey
    exact requests_abandon_sublist t locker key
  · rw [requests_abandon_of_ne t locker hkey]

namespace StepOutcome

theorem distinct (h : StepOutcome now deadline locker key mode s t stage stage' s' t')
    (hd : t.Distinct) : t'.Distinct := by
  cases h with
  | @granted _ t₁ hattempt =>
      show t₁.Distinct
      exact distinct_attempt hd hattempt
  | blocked hattempt =>
      intro key'
      rw [requests_park]
      exact distinct_attempt hd hattempt key'
  | leaves => exact fun key' => (hd key').sublist (sublist_abandon t locker key key')
  | _ => exact hd

/-- What every wound of somebody else keeps, a step keeps. -/
theorem lockers {R : σ → σ → Prop}
    (h : StepOutcome now deadline locker key mode s t stage stage' s' t') (hrefl : ∀ s, R s s)
    (htrans : ∀ s₁ s₂ s₃, R s₁ s₂ → R s₂ s₃ → R s₁ s₃)
    (hwound : ∀ s l reason, l ≠ locker → R s (Lockers.wound s l reason).2) : R s s' := by
  cases h with
  | granted hattempt => exact lockers_attempt hrefl htrans hwound hattempt
  | blocked hattempt => exact lockers_attempt hrefl htrans hwound hattempt
  | _ => exact hrefl s

/-- Nobody but the locker gets an entry, on any key. -/
theorem others (h : StepOutcome now deadline locker key mode s t stage stage' s' t')
    (hd : t.Distinct) {e : LockEntry L} (he : e ∈ t'.requests key') (hne : e.owner ≠ locker) :
    e ∈ t.requests key' := by
  have hattempted : ∀ {verdict s₁ t₁}, t.attempt now locker key mode true s = (verdict, s₁, t₁) →
      e ∈ t₁.requests key' → e ∈ t.requests key' := by
    intro verdict s₁ t₁ hattempt hin
    by_cases hkey : key = key'
    · subst hkey
      exact (attempt_spec .any hd hattempt).others e hin hne
    · rwa [← requests_attempt_of_ne hattempt hkey]
  cases h with
  | granted hattempt => exact hattempted hattempt he
  | blocked hattempt =>
      rw [requests_park] at he
      exact hattempted hattempt he
  | leaves => exact (sublist_abandon t locker key key').subset he
  | _ => exact he

end StepOutcome

theorem holdings_abandon (hd : t.Distinct) (key' : K) {e : LockEntry L}
    (hgranted : e.granted = true) :
    e ∈ (t.abandon locker key).requests key' ↔ e ∈ t.requests key' := by
  by_cases hkey : key = key'
  · subst hkey
    rw [mem_requests_abandon hd]
    exact and_iff_left fun _ => hgranted
  · rw [requests_abandon_of_ne t locker hkey]

end LockTable

namespace Register

variable {K : Type} [DecidableEq K] [Hashable K] {r r' : Register} {id : TxnId} {key : K}
variable {now deadline : Nat} {mode : LockMode} {t t' : LockTable K TxnId}
variable {stage stage' : LockStage TxnId}

theorem wounded_step
    (h : LockTable.StepOutcome now deadline id key mode r t stage stage' r' t') : Wounded r r' :=
  h.lockers Wounded.refl (fun _ _ _ => Wounded.trans) fun r id reason _ => wounded_wound r id reason

theorem find_step_self
    (h : LockTable.StepOutcome now deadline id key mode r t stage stage' r' t') :
    r'.find id = r.find id :=
  h.lockers (R := fun r r' : Register => r'.find id = r.find id) (fun _ => rfl)
    (fun _ _ _ h h' => h'.trans h) fun _ _ _ hne => find_update_of_ne hne

end Register

/-! ### Runs -/

/-- An access that a transaction reports, and how long it may wait for it. -/
structure ReportRequest (K : Type) where
  t : TxnId
  key : K
  mode : LockMode
  deadline : Nat

/-- A report that has no answer yet. -/
structure ReportCall (K : Type) extends ReportRequest K where
  stage : LockStage TxnId

/-- What may happen next to a reporter and its transactions. -/
inductive ReportStep (K : Type) where
  /-- A transaction reports an access by a call of this number. -/
  | report (call : Nat) (t : TxnId) (key : K) (mode : LockMode)
  /-- A call takes the next step of its turn. -/
  | proceed (call : Nat)
  /-- A call that waits begins its next turn, be it due or not. -/
  | resume (call : Nat)
  /-- A call that has failed says so. -/
  | tell (call : Nat)
  | describe (t : TxnId) (key : K) (text : String)
  /-- The locks of a transaction that ends go. -/
  | release (t : TxnId)
  /-- The descriptions of a transaction that ends go. -/
  | forget (t : TxnId)
  /-- Statuses change: transactions begin, prepare, end or are wounded elsewhere. -/
  | change (f : Register → Register)
  | tick (n : Nat)

/-- A reporter in use, and the calls that have no answer yet. -/
structure ReportTraffic (K : Type) where
  now : Nat
  register : Register
  reporter : LockingReporter K
  calls : FinMap Nat (ReportCall K)

namespace ReportTraffic

variable {K : Type}

/-- A reporter that nobody has used. -/
def new (source : String) (shards : Nat) : ReportTraffic K := ⟨0, .empty, .named source shards, ∅⟩

variable [DecidableEq K] [Hashable K]

/-- Lets a call take the next step of its turn.  A call that is granted is answered. -/
def takeStep (call : Nat) (c : ReportCall K) (s : ReportTraffic K) : ReportTraffic K :=
  let (stage, register, table) :=
    LockTable.step s.now c.deadline c.t c.key c.mode (c.stage, s.register, s.reporter.table)
  { s with
    register
    reporter := { s.reporter with table }
    calls := s.calls.change call
      (if stage = .ended .granted then none else some ⟨c.toReportRequest, stage⟩) }

/-- Takes a step; one that is not possible now does nothing. -/
def perform (s : ReportTraffic K) : ReportStep K → ReportTraffic K
  | .report call t key mode =>
    if s.calls.contains call then s
    else { s with
      calls := s.calls.insert call ⟨⟨t, key, mode, (s.register.find t).deadline⟩, .check⟩ }
  | .proceed call => ((s.calls.get? call).map fun c => s.takeStep call c).getD s
  | .resume call =>
    match s.calls.get? call with
    | some ⟨q, .ended (.waiting _)⟩ => { s with calls := s.calls.insert call ⟨q, .check⟩ }
    | _ => s
  | .tell call =>
    match s.calls.get? call with
    | some ⟨_, .ended (.failed _)⟩ => { s with calls := s.calls.erase call }
    | _ => s
  | .describe t key text => { s with reporter := s.reporter.describe t key text }
  | .release t => { s with reporter := { s.reporter with table := s.reporter.table.releaseAll t } }
  | .forget t => { s with reporter := s.reporter.forget t }
  | .change f => { s with register := f s.register }
  | .tick n => { s with now := s.now + n }

/-- Takes steps one after another. -/
def run (steps : List (ReportStep K)) (s : ReportTraffic K) : ReportTraffic K :=
  steps.foldl perform s

theorem run_append (steps rest : List (ReportStep K)) (s : ReportTraffic K) :
    s.run (steps ++ rest) = (s.run steps).run rest :=
  List.foldl_append

theorem run_concat (steps : List (ReportStep K)) (step : ReportStep K) (s : ReportTraffic K) :
    s.run (steps ++ [step]) = (s.run steps).perform step := by
  simp [run]

variable {s : ReportTraffic K} {call : Nat} {q : ReportRequest K}

/-- What a call says when it tells of its failure. -/
def told? [Labelled K] (call : Nat) (s : ReportTraffic K) : Option StoreError :=
  match s.calls.get? call with
  | some ⟨q, .ended (.failed error)⟩ => some (s.reporter.failure s.register q.t q.key error)
  | _ => none

/-! ### What a step does -/

/-- One step, and what it makes of the reporter and the calls. -/
inductive Move (s : ReportTraffic K) : ReportStep K → ReportTraffic K → Prop where
  | rests {step : ReportStep K} (hidle : ∀ call, step = .proceed call → s.calls.get? call = none) :
    Move s step s
  | reports {call : Nat} {t : TxnId} {key : K} {mode : LockMode} (hfree : s.calls.get? call = none) :
    Move s (.report call t key mode)
      { s with
        calls := s.calls.insert call ⟨⟨t, key, mode, (s.register.find t).deadline⟩, .check⟩ }
  | proceeds {call : Nat} {q : ReportRequest K} {stage stage' : LockStage TxnId}
    {register : Register} {table : LockTable K TxnId} (hcall : s.calls.get? call = some ⟨q, stage⟩)
    (hstep : LockTable.StepOutcome s.now q.deadline q.t q.key q.mode s.register s.reporter.table
      stage stage' register table) :
    Move s (.proceed call)
      { s with
        register
        reporter := { s.reporter with table }
        calls := s.calls.change call (if stage' = .ended .granted then none else some ⟨q, stage'⟩) }
  | resumes {call : Nat} {q : ReportRequest K} {signal : Signal}
    (hcall : s.calls.get? call = some ⟨q, .ended (.waiting signal)⟩) :
    Move s (.resume call) { s with calls := s.calls.insert call ⟨q, .check⟩ }
  | tells {call : Nat} {q : ReportRequest K} {error : LockError TxnId}
    (hcall : s.calls.get? call = some ⟨q, .ended (.failed error)⟩) :
    Move s (.tell call) { s with calls := s.calls.erase call }
  | describes (t : TxnId) (key : K) (text : String) :
    Move s (.describe t key text) { s with reporter := s.reporter.describe t key text }
  | releases (t : TxnId) :
    Move s (.release t)
      { s with reporter := { s.reporter with table := s.reporter.table.releaseAll t } }
  | forgets (t : TxnId) : Move s (.forget t) { s with reporter := s.reporter.forget t }
  | changes (f : Register → Register) : Move s (.change f) { s with register := f s.register }
  | ticks (n : Nat) : Move s (.tick n) { s with now := s.now + n }

/-- **Every step is in the list.** -/
theorem move_perform (s : ReportTraffic K) (step : ReportStep K) : s.Move step (s.perform step) := by
  cases step with
  | report call t key mode =>
      cases hcall : s.calls.get? call with
      | none =>
          simp only [perform, FinMap.contains, hcall, Option.isSome_none, Bool.false_eq_true, if_false]
          exact .reports hcall
      | some c =>
          simp only [perform, FinMap.contains, hcall, Option.isSome_some, if_true]
          exact .rests (by simp)
  | proceed call =>
      cases hcall : s.calls.get? call with
      | none =>
          simp only [perform, hcall, Option.map_none, Option.getD_none]
          refine .rests fun call' hstep => ?_
          cases hstep
          exact hcall
      | some c =>
          rcases hstep : LockTable.step s.now c.deadline c.t c.key c.mode
            (c.stage, s.register, s.reporter.table) with ⟨stage', register, table⟩
          simp only [perform, hcall, Option.map_some, Option.getD_some, takeStep, hstep]
          exact .proceeds hcall (LockTable.step_outcome hstep)
  | resume call =>
      simp only [perform]
      split
      · rename_i hcall
        exact .resumes hcall
      · exact .rests (by simp)
  | tell call =>
      simp only [perform]
      split
      · rename_i hcall
        exact .tells hcall
      · exact .rests (by simp)
  | describe t key text => exact .describes t key text
  | release t => exact .releases t
  | forget t => exact .forgets t
  | change f => exact .changes f
  | tick n => exact .ticks n

theorem Move.source {s' : ReportTraffic K} {step : ReportStep K} (h : s.Move step s') :
    s'.reporter.source = s.reporter.source := by
  cases h <;> rfl

theorem source_run (steps : List (ReportStep K)) (s : ReportTraffic K) :
    (s.run steps).reporter.source = s.reporter.source := by
  induction steps generalizing s with
  | nil => rfl
  | cons step rest ih => exact (ih (s.perform step)).trans (move_perform s step).source

/-- No step gives a transaction a second entry on a key. -/
theorem Move.distinct {s' : ReportTraffic K} {step : ReportStep K} (h : s.Move step s')
    (hd : s.reporter.table.Distinct) : s'.reporter.table.Distinct := by
  cases h with
  | proceeds _ hstep => exact hstep.distinct hd
  | releases t => exact hd.releaseAll
  | _ => exact hd

/-! ### Steps that follow one another at once -/

/-- A call stands at a stage of its turn, with these statuses and this table. -/
structure Stands (l : LockingReporter K) (now call : Nat) (q : ReportRequest K)
    (x : LockStage TxnId × Register × LockTable K TxnId) (s : ReportTraffic K) : Prop where
  now : s.now = now
  register : s.register = x.2.1
  reporter : s.reporter = { l with table := x.2.2 }
  call : s.calls.get? call = if x.1 = .ended .granted then none else some ⟨q, x.1⟩

theorem Stands.proceed {l : LockingReporter K} {now : Nat}
    {x : LockStage TxnId × Register × LockTable K TxnId} (h : Stands l now call q x s) :
    Stands l now call q (LockTable.step now q.deadline q.t q.key q.mode x)
      (s.perform (.proceed call)) := by
  obtain ⟨stage, register, table⟩ := x
  obtain ⟨rfl, rfl, hreporter, hcall⟩ := h
  by_cases hgranted : stage = .ended .granted
  · subst hgranted
    simp only [if_true] at hcall
    simp only [perform, hcall]
    exact ⟨rfl, rfl, hreporter, hcall.trans (if_pos rfl).symm⟩
  · simp only [if_neg hgranted] at hcall
    simp only [perform, hcall, Option.map_some, Option.getD_some, takeStep, hreporter]
    exact ⟨rfl, rfl, rfl, FinMap.get?_change_self _ _ _⟩

/-- **A report whose steps follow one another at once is a report of the reporter.** -/
theorem run_report [Labelled K] {t : TxnId} {key : K} {mode : LockMode} {answer : AccessTurn}
    {register : Register} {reporter : LockingReporter K} {s' : ReportTraffic K}
    (hfree : s.calls.get? call = none)
    (h : s.reporter.report s.now t key mode s.register = (answer, register, reporter))
    (hs' : s' = s.run (.report call t key mode :: List.replicate 4 (.proceed call))) :
    s'.register = register ∧ s'.reporter = reporter ∧
      (answer = .allowed → s'.calls.get? call = none) ∧
      (∀ signal, answer = .waiting signal →
        (s'.calls.get? call).map (·.stage) = some (.ended (.waiting signal))) ∧
      ∀ e, answer = .refused e → s'.told? call = some e := by
  let q : ReportRequest K := ⟨t, key, mode, (s.register.find t).deadline⟩
  have hbegins : Stands s.reporter s.now call q (.check, s.register, s.reporter.table)
      (s.perform (.report call t key mode)) := by
    simp only [perform, FinMap.contains, hfree, Option.isSome_none, Bool.false_eq_true, if_false]
    exact ⟨rfl, rfl, rfl, FinMap.get?_insert_self _ _ _⟩
  have hends : Stands s.reporter s.now call q
      (s.reporter.table.allSteps s.now q.deadline t key mode s.register) s' :=
    hs' ▸ hbegins.proceed.proceed.proceed.proceed
  rw [LockTable.allSteps_eq] at hends
  obtain ⟨-, hregister, hreporter, hcall⟩ := hends
  unfold LockingReporter.report at h
  rcases hturn : s.reporter.table.turn s.now q.deadline t key mode s.register
    with ⟨turn, register', table⟩
  rw [hturn] at hregister hreporter hcall
  rw [show s.reporter.table.turn s.now (s.register.find t).deadline t key mode s.register =
    (turn, register', table) from hturn] at h
  cases turn with
  | granted =>
      cases h
      exact ⟨hregister, hreporter, fun _ => hcall, by simp, by simp⟩
  | waiting signal =>
      cases h
      refine ⟨hregister, hreporter, by simp, fun signal' hsignal => ?_, by simp⟩
      cases hsignal
      exact congrArg (Option.map _) hcall
  | failed error =>
      cases h
      refine ⟨hregister, hreporter, by simp, by simp, fun e he => ?_⟩
      cases he
      have hcall' : s'.calls.get? call = some ⟨q, .ended (.failed error)⟩ := hcall
      simp only [told?, hcall', hreporter, hregister]
      rfl

/-- An end with nothing between its parts is an end of the reporter. -/
theorem finish_eq (s : ReportTraffic K) (t : TxnId) :
    ((s.perform (.release t)).perform (.forget t)).reporter = s.reporter.finish t := rfl

end ReportTraffic

end ObjectStore
