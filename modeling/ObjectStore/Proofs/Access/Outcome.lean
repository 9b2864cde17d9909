/-
How a report ends.

A report is granted in the step in which it makes its attempt.  Its transaction was active when the
call looked last, and holds the key from the attempt on.  Nobody looks again: whoever is aborted
between the look and the attempt is granted the key all the same, and only that can happen
(`ReportTraffic.report_ends`, `ReportTraffic.exists_granted_inactive`).

A report fails for a transaction that is no longer active, or because its deadline has come and
somebody else's entry was in the way of its attempt.  It leaves the queue before it fails, and leaves
its transaction what it holds.

`Accounted` is the invariant: what has brought a call to its stage, told as moments of the run.
-/
import Mathlib.Data.List.Induction
import ObjectStore.Proofs.Access.Run
import ObjectStore.Proofs.Locking.Exclusion

namespace ObjectStore

namespace ReportTraffic

variable {K : Type} [DecidableEq K] [Hashable K] {s s' w : ReportTraffic K}
variable {steps early : List (ReportStep K)} {step : ReportStep K} {call : Nat}
variable {q : ReportRequest K} {stage stage' : LockStage TxnId} {t : TxnId}

/-! ### The rules of use -/

/-- The step keeps to what is asked of those who use a reporter.  Whoever reports an access has begun
and has had an answer to the access before; and statuses take their course. -/
def Admits (s : ReportTraffic K) : ReportStep K → Prop
  | .report _ t _ _ => s.register.isKnown t = true ∧ ∀ p ∈ s.calls.pairs, p.2.t ≠ t
  | .change f => s.register.Later (f s.register)
  | _ => True

/-- Every step of a run keeps to it. -/
def Orderly : List (ReportStep K) → ReportTraffic K → Prop
  | [], _ => True
  | step :: rest, s => s.Admits step ∧ Orderly rest (s.perform step)

theorem orderly_append (steps rest : List (ReportStep K)) (s : ReportTraffic K) :
    Orderly (steps ++ rest) s ↔ Orderly steps s ∧ Orderly rest (s.run steps) := by
  induction steps generalizing s with
  | nil => exact (and_iff_right trivial).symm
  | cons step steps ih => exact (and_congr_right fun _ => ih (s.perform step)).trans and_assoc.symm

theorem orderly_concat :
    Orderly (steps ++ [step]) s ↔ Orderly steps s ∧ (s.run steps).Admits step := by
  rw [orderly_append]
  exact and_congr_right fun _ => and_iff_left trivial

/-! ### What a step leaves to others -/

theorem Move.later (h : s.Move step s') (hadmits : s.Admits step) :
    s.register.Later s'.register := by
  cases h with
  | proceeds _ hstep => exact (Register.wounded_step hstep).later
  | changes f => exact hadmits
  | _ => exact .refl _

theorem later_run (horderly : Orderly steps s) : s.register.Later (s.run steps).register := by
  induction steps generalizing s with
  | nil => exact .refl _
  | cons step rest ih => exact ((move_perform s step).later horderly.1).trans (ih horderly.2)

/-- What a step leaves of a transaction that does not take it: time goes on, its status takes its
course, and nobody queues it. -/
structure Spares (s s' : ReportTraffic K) (t : TxnId) : Prop where
  now : s.now ≤ s'.now
  later : s.register.Later s'.register
  queue : ∀ key e, e ∈ s'.reporter.table.requests key → e.owner = t → e.granted = false →
    e ∈ s.reporter.table.requests key

theorem Move.spares (h : s.Move step s') (hd : s.reporter.table.Distinct)
    (hadmits : s.Admits step)
    (hother : ∀ call c, step = .proceed call → s.calls.get? call = some c → c.t ≠ t) :
    Spares s s' t := by
  refine ⟨?_, h.later hadmits, fun key e he howner _ => ?_⟩
  · cases h with
    | ticks n => exact Nat.le_add_right _ n
    | _ => exact Nat.le_refl _
  · cases h with
    | proceeds hcall hstep =>
        exact hstep.others hd he fun hown => hother _ _ rfl hcall (hown.symm.trans howner)
    | releases u =>
        have hin : e ∈ (s.reporter.table.releaseAll u).requests key := he
        rw [LockTable.requests_releaseAll] at hin
        exact List.mem_of_mem_eraseP hin
    | _ => exact he

/-! ### The moments of a call -/

/-- The call was found active right after the steps `early`, and has taken no step since. -/
structure Checked (w : ReportTraffic K) (steps early : List (ReportStep K)) (call : Nat)
    (q : ReportRequest K) : Prop where
  since : ∃ rest, steps = early ++ .proceed call :: rest ∧ .proceed call ∉ rest
  found : (w.run early).calls.get? call = some ⟨q, .check⟩
  active : (w.run early).register.stateOf q.t = .active

/-- The call took its step from this stage right after the steps `early`, and has not been at the
stage since. -/
structure LastFrom (w : ReportTraffic K) (steps early : List (ReportStep K)) (call : Nat)
    (q : ReportRequest K) (stage : LockStage TxnId) : Prop where
  goesOn : early ++ [.proceed call] <+: steps
  found : (w.run early).calls.get? call = some ⟨q, stage⟩
  last : ∀ moment, early ++ [.proceed call] <+: moment → moment <+: steps →
    (w.run moment).calls.get? call ≠ some ⟨q, stage⟩

/-- The step is taken now. -/
theorem LastFrom.now (hfound : (w.run steps).calls.get? call = some ⟨q, stage⟩)
    (hleaves : (w.run (steps ++ [.proceed call])).calls.get? call ≠ some ⟨q, stage⟩) :
    w.LastFrom (steps ++ [.proceed call]) steps call q stage where
  goesOn := List.prefix_rfl
  found := hfound
  last := by
    intro moment hfrom hto
    rw [hto.eq_of_length_le hfrom.length_le]
    exact hleaves

theorem LastFrom.concat (h : w.LastFrom steps early call q stage)
    (haway : (w.run (steps ++ [step])).calls.get? call ≠ some ⟨q, stage⟩) :
    w.LastFrom (steps ++ [step]) early call q stage where
  goesOn := h.goesOn.trans (List.prefix_append _ _)
  found := h.found
  last := by
    intro moment hfrom hto
    rcases List.prefix_concat_iff.mp hto with rfl | hbefore
    · exact haway
    · exact h.last moment hfrom hbefore

theorem Checked.concat (h : w.Checked steps early call q) (hother : step ≠ .proceed call) :
    w.Checked (steps ++ [step]) early call q where
  since := by
    obtain ⟨rest, rfl, hnone⟩ := h.since
    refine ⟨rest ++ [step], by simp, fun hin => ?_⟩
    rcases List.mem_append.mp hin with hold | hlast
    · exact hnone hold
    · exact hother (List.mem_singleton.mp hlast).symm
  found := h.found
  active := h.active

/-- After the attempt that the call made right after `early`, the entry of `holder` was in its way. -/
def HeldUp (w : ReportTraffic K) (early : List (ReportStep K)) (call : Nat) (q : ReportRequest K)
    (holder : TxnId) : Prop :=
  holder ≠ q.t ∧ ∃ entry ∈ (w.run (early ++ [.proceed call])).reporter.table.requests q.key,
    entry.owner = holder ∧ q.mode.conflictsWith entry.mode = true

/-- Why a call fails. -/
inductive Excused (w : ReportTraffic K) (steps : List (ReportStep K)) (call : Nat)
    (q : ReportRequest K) : LockError TxnId → Prop where
  | timeout {early : List (ReportStep K)} {holder : TxnId}
    (hattempt : w.LastFrom steps early call q .attempt) (hheld : w.HeldUp early call q holder)
    (hlate : q.deadline ≤ (w.run steps).now) : Excused w steps call q (.timeout (some holder))
  | notActive (hstate : (w.run steps).register.stateOf q.t ≠ .active) :
    Excused w steps call q .notActive

/-- A call that has left the queue right after `early` has nothing in it, and whoever held a key
before that step held it after it. -/
structure Gone (w : ReportTraffic K) (steps early : List (ReportStep K)) (call : Nat)
    (q : ReportRequest K) (error : LockError TxnId) : Prop
    extends LastFrom w steps early call q (.leaving error) where
  unqueued : ∀ entry ∈ (w.run steps).reporter.table.requests q.key, entry.owner = q.t →
    entry.granted = true
  kept : ∀ key entry, entry.granted = true →
    (entry ∈ (w.run (early ++ [.proceed call])).reporter.table.requests key ↔
      entry ∈ (w.run early).reporter.table.requests key)

/-- What has brought a call to its stage. -/
inductive Traced (w : ReportTraffic K) (steps : List (ReportStep K)) (call : Nat)
    (q : ReportRequest K) : LockStage TxnId → Prop where
  | check : Traced w steps call q .check
  | attempt {early : List (ReportStep K)} (h : w.Checked steps early call q) :
    Traced w steps call q .attempt
  | parked {early : List (ReportStep K)} {signal : Signal} {holder : TxnId}
    (hattempt : w.LastFrom steps early call q .attempt) (hheld : w.HeldUp early call q holder) :
    Traced w steps call q (.parked signal holder)
  | waiting {signal : Signal} : Traced w steps call q (.ended (.waiting signal))
  | leaving {error : LockError TxnId} (h : w.Excused steps call q error) :
    Traced w steps call q (.leaving error)
  | failed {early : List (ReportStep K)} {error : LockError TxnId}
    (h : w.Excused steps call q error) (hgone : w.Gone steps early call q error) :
    Traced w steps call q (.ended (.failed error))

/-- All that is known of a call that has no answer yet. -/
structure Accounted (w : ReportTraffic K) (steps : List (ReportStep K)) (call : Nat)
    (q : ReportRequest K) (stage : LockStage TxnId) : Prop where
  known : (w.run steps).register.isKnown q.t = true
  deadline : q.deadline = ((w.run steps).register.find q.t).deadline
  traced : w.Traced steps call q stage

/-! ### Every call is accounted for -/

theorem Excused.concat {error : LockError TxnId} (h : w.Excused steps call q error)
    (hknown : (w.run steps).register.isKnown q.t = true)
    (hspares : Spares (w.run steps) (w.run (steps ++ [step])) q.t)
    (haway : (w.run (steps ++ [step])).calls.get? call ≠ some ⟨q, .attempt⟩) :
    w.Excused (steps ++ [step]) call q error := by
  cases h with
  | timeout hattempt hheld hlate =>
      exact .timeout (hattempt.concat haway) hheld (Nat.le_trans hlate hspares.now)
  | notActive hstate => exact .notActive (hspares.later.ne_active hknown hstate)

theorem Accounted.spared (h : w.Accounted steps call q stage)
    (hspares : Spares (w.run steps) (w.run (steps ++ [step])) q.t)
    (hcall : (w.run (steps ++ [step])).calls.get? call = some ⟨q, stage⟩)
    (hother : stage = .attempt → step ≠ .proceed call) :
    w.Accounted (steps ++ [step]) call q stage := by
  have haway : ∀ stage', stage ≠ stage' →
      (w.run (steps ++ [step])).calls.get? call ≠ some ⟨q, stage'⟩ := by
    intro stage' hne hat
    exact hne (congrArg ReportCall.stage (Option.some.inj (hcall.symm.trans hat)))
  refine ⟨hspares.later.known _ h.known, ?_, ?_⟩
  · rw [(hspares.later.find _ h.known).deadline]
    exact h.deadline
  · cases h.traced with
    | check => exact .check
    | attempt hchecked => exact .attempt (hchecked.concat (hother rfl))
    | parked hattempt hheld => exact .parked (hattempt.concat (haway _ (by simp))) hheld
    | waiting => exact .waiting
    | leaving hexcused => exact .leaving (hexcused.concat h.known hspares (haway _ (by simp)))
    | failed hexcused hgone =>
        refine .failed (hexcused.concat h.known hspares (haway _ (by simp)))
          ⟨hgone.toLastFrom.concat (haway _ (by simp)), fun entry hin howner => ?_, hgone.kept⟩
        by_contra hqueued
        have hbefore := hspares.queue _ entry hin howner (Bool.of_not_eq_true hqueued)
        exact hqueued (hgone.unqueued entry hbefore howner)

theorem Accounted.anew (hknown : (w.run steps).register.isKnown q.t = true)
    (hdeadline : q.deadline = ((w.run steps).register.find q.t).deadline)
    (hlater : (w.run steps).register.Later (w.run (steps ++ [step])).register) :
    w.Accounted (steps ++ [step]) call q .check :=
  ⟨hlater.known _ hknown, hdeadline.trans (hlater.find _ hknown).deadline.symm, .check⟩

theorem Accounted.own {register : Register} {table : LockTable K TxnId}
    (h : w.Accounted steps call q stage) (hd : (w.run steps).reporter.table.Distinct)
    (hcall : (w.run steps).calls.get? call = some ⟨q, stage⟩)
    (hstep : LockTable.StepOutcome (w.run steps).now q.deadline q.t q.key q.mode
      (w.run steps).register (w.run steps).reporter.table stage stage' register table)
    (hnow : (w.run (steps ++ [.proceed call])).now = (w.run steps).now)
    (hregister : (w.run (steps ++ [.proceed call])).register = register)
    (htable : (w.run (steps ++ [.proceed call])).reporter.table = table)
    (hcall' : (w.run (steps ++ [.proceed call])).calls.get? call = some ⟨q, stage'⟩)
    (hgoes : stage' ≠ .ended .granted) :
    w.Accounted (steps ++ [.proceed call]) call q stage' := by
  have hlater : (w.run steps).register.Later (w.run (steps ++ [.proceed call])).register :=
    hregister ▸ (Register.wounded_step hstep).later
  have hself : (w.run (steps ++ [.proceed call])).register.find q.t =
      (w.run steps).register.find q.t := by
    rw [hregister]
    exact Register.find_step_self hstep
  have haway : ∀ other, stage' ≠ other →
      (w.run (steps ++ [.proceed call])).calls.get? call ≠ some ⟨q, other⟩ := by
    intro other hne hat
    exact hne (congrArg ReportCall.stage (Option.some.inj (hcall'.symm.trans hat)))
  have hspares : (∀ key, (table.requests key).Sublist
        ((w.run steps).reporter.table.requests key)) →
      Spares (w.run steps) (w.run (steps ++ [.proceed call])) q.t :=
    fun hsub => ⟨Nat.le_of_eq hnow.symm, hlater, fun key e he _ _ =>
      (hsub key).subset (htable ▸ he)⟩
  refine ⟨hlater.known _ h.known, ?_, ?_⟩
  · rw [hself]
    exact h.deadline
  have htraced := h.traced
  cases hstep with
  | active hactive =>
      exact .attempt ⟨⟨[], rfl, List.not_mem_nil⟩, hcall, Txn.isActive_iff.mp hactive⟩
  | inactive hinactive =>
      refine .leaving (.notActive ?_)
      rw [Register.stateOf, hself]
      exact Register.stateOf_ne_active hinactive
  | granted => exact absurd rfl hgoes
  | blocked hattempt =>
      obtain ⟨entry, hin, howner, hbars⟩ := LockTable.attempt_blocked .any hd hattempt
      refine .parked (.now hcall (haway _ (by simp))) ⟨fun hc => hbars.other (howner.trans hc), entry,
        ?_, howner, hbars.conflicts⟩
      rw [htable, LockTable.requests_park]
      exact hin
  | late hlate =>
      cases htraced with
      | parked hattempt hheld =>
          exact .leaving (.timeout (hattempt.concat (haway _ (by simp))) hheld (hnow ▸ hlate))
  | waits => exact .waiting
  | leaves =>
      cases htraced with
      | leaving hexcused =>
          have hsub := hspares (LockTable.sublist_abandon _ _ _)
          refine .failed (hexcused.concat h.known hsub (haway _ (by simp)))
            ⟨.now hcall (haway _ (by simp)), fun entry hin howner => ?_, fun key' entry hgranted => ?_⟩
          · rw [htable] at hin
            exact ((LockTable.mem_requests_abandon hd).mp hin).2 howner
          · rw [htable]
            exact LockTable.holdings_abandon hd key' hgranted
  | rests =>
      exact (h.spared (hspares fun _ => List.Sublist.refl _) hcall' (by simp)).traced

/-- How a call has come to where it is after a step. -/
inductive Reaches (s s' : ReportTraffic K) (step : ReportStep K) (call : Nat) (q : ReportRequest K)
    (stage : LockStage TxnId) : Prop where
  | stays (hother : step ≠ .proceed call) (hcall : s.calls.get? call = some ⟨q, stage⟩)
  | begins (hstep : step = .report call q.t q.key q.mode) (hstage : stage = .check)
    (hdeadline : q.deadline = (s.register.find q.t).deadline)
  | proceeds {stage₀ : LockStage TxnId} {register : Register} {table : LockTable K TxnId}
    (hstep : step = .proceed call) (hcall : s.calls.get? call = some ⟨q, stage₀⟩)
    (houtcome : LockTable.StepOutcome s.now q.deadline q.t q.key q.mode s.register
      s.reporter.table stage₀ stage register table)
    (hnow : s'.now = s.now) (hregister : s'.register = register)
    (htable : s'.reporter.table = table) (hgoes : stage ≠ .ended .granted)
  | resumes {signal : Signal} (hstep : step = .resume call) (hstage : stage = .check)
    (hcall : s.calls.get? call = some ⟨q, .ended (.waiting signal)⟩)

theorem Move.reaches (h : s.Move step s') (hcall : s'.calls.get? call = some ⟨q, stage⟩) :
    Reaches s s' step call q stage := by
  cases h with
  | rests hidle =>
      refine .stays ?_ hcall
      rintro rfl
      exact absurd ((hidle call rfl).symm.trans hcall) (by simp)
  | reports hfree =>
      rw [FinMap.get?_insert] at hcall
      split at hcall
      · rename_i heq
        subst heq
        cases hcall
        exact .begins rfl rfl rfl
      · exact .stays (by simp) hcall
  | @proceeds call' q' stage₀ stage' register table hbefore hstep =>
      rw [FinMap.get?_change] at hcall
      split at hcall
      · rename_i heq
        subst heq
        split at hcall
        · exact absurd hcall (by simp)
        · rename_i hgoes
          cases hcall
          exact .proceeds rfl hbefore hstep rfl rfl rfl hgoes
      · rename_i hne
        exact .stays (by simpa using hne) hcall
  | resumes hbefore =>
      rw [FinMap.get?_insert] at hcall
      split at hcall
      · rename_i heq
        subst heq
        cases hcall
        exact .resumes rfl rfl hbefore
      · exact .stays (by simp) hcall
  | tells => exact .stays (by simp) (FinMap.get?_of_get?_erase hcall)
  | _ => exact .stays (by simp) hcall

/-- No locker has two entries on a key, no transaction has two calls, and every call is accounted
for. -/
structure Tracked (w : ReportTraffic K) (steps : List (ReportStep K)) : Prop where
  distinct : (w.run steps).reporter.table.Distinct
  alone : ∀ call call' c c', (w.run steps).calls.get? call = some c →
    (w.run steps).calls.get? call' = some c' → c.t = c'.t → call = call'
  calls : ∀ call q stage, (w.run steps).calls.get? call = some ⟨q, stage⟩ →
    w.Accounted steps call q stage

theorem tracked_new (source : String) (shards : Nat) :
    (new source shards : ReportTraffic K).Tracked [] where
  distinct := LockTable.distinct_ofShards shards
  alone := fun _ _ _ _ h => absurd h (by simp [run, new])
  calls := fun _ _ _ h => absurd h (by simp [run, new])

/-- A call after a step belongs to a transaction that had it before, or has just reported. -/
theorem Reaches.owner {c : ReportCall K} (h : Reaches s s' step call c.toReportRequest c.stage) :
    (∃ c₀, s.calls.get? call = some c₀ ∧ c₀.t = c.t) ∨
      step = .report call c.t c.key c.mode := by
  cases h with
  | stays _ hcall => exact Or.inl ⟨_, hcall, rfl⟩
  | begins hstep => exact Or.inr hstep
  | proceeds _ hcall => exact Or.inl ⟨_, hcall, rfl⟩
  | resumes _ _ hcall => exact Or.inl ⟨_, hcall, rfl⟩

theorem Tracked.concat (h : w.Tracked steps) (hadmits : (w.run steps).Admits step) :
    w.Tracked (steps ++ [step]) := by
  have hmove : (w.run steps).Move step (w.run (steps ++ [step])) := by
    rw [run_concat]
    exact move_perform _ step
  refine ⟨hmove.distinct h.distinct, ?_, ?_⟩
  · intro call call' c c' hcall hcall' htxn
    have hnew : ∀ {call call' : Nat} {c₀ c' : ReportCall K},
        (w.run steps).calls.get? call = some c₀ →
        step = .report call' c'.t c'.key c'.mode → c₀.t ≠ c'.t := by
      rintro call call' c₀ c' hbefore rfl
      exact hadmits.2 (call, c₀) ((FinMap.get?_eq_some_iff _ _ _).mp hbefore)
    rcases (hmove.reaches hcall).owner with ⟨c₀, hbefore, howner⟩ | hreport
    · rcases (hmove.reaches hcall').owner with ⟨c₀', hbefore', howner'⟩ | hreport'
      · exact h.alone call call' c₀ c₀' hbefore hbefore' (by rw [howner, howner', htxn])
      · exact absurd (howner.trans htxn) (hnew hbefore hreport')
    · rcases (hmove.reaches hcall').owner with ⟨c₀', hbefore', howner'⟩ | hreport'
      · exact absurd (howner'.trans htxn.symm) (hnew hbefore' hreport)
      · exact (ReportStep.report.inj (hreport.symm.trans hreport')).1
  · intro call q stage hcall
    have hspares : (∀ call' c, step = .proceed call' → (w.run steps).calls.get? call' = some c →
        c.t ≠ q.t) → Spares (w.run steps) (w.run (steps ++ [step])) q.t :=
      hmove.spares h.distinct hadmits
    cases hmove.reaches hcall with
    | stays hother hbefore =>
        refine (h.calls call q stage hbefore).spared (hspares ?_) hcall fun _ => hother
        rintro call' c rfl hcall' htxn
        exact hother (congrArg _ (h.alone call' call c _ hcall' hbefore htxn))
    | begins hstep hstage hdeadline =>
        subst hstep hstage
        exact .anew hadmits.1 hdeadline (hmove.later hadmits)
    | proceeds hstep hbefore houtcome hnow hregister htable hgoes =>
        subst hstep
        exact (h.calls call q _ hbefore).own h.distinct hbefore houtcome hnow hregister htable hcall
          hgoes
    | resumes _ hstage hbefore =>
        subst hstage
        obtain ⟨hknown, hdeadline, -⟩ := h.calls call q _ hbefore
        exact .anew hknown hdeadline (hmove.later hadmits)

theorem tracked_run (source : String) (shards : Nat)
    (horderly : Orderly steps (new source shards)) :
    (new source shards : ReportTraffic K).Tracked steps := by
  induction steps using List.reverseRecOn with
  | nil => exact tracked_new source shards
  | append_singleton steps step ih =>
      obtain ⟨hbefore, hadmits⟩ := orderly_concat.mp horderly
      exact (ih hbefore).concat hadmits

/-! ### The end of a report -/

/-- Since the call was found active right after the steps `early`, a step that is not its own has
ended the activity of the transaction. -/
def Struck (w : ReportTraffic K) (steps early : List (ReportStep K)) (call : Nat) (t : TxnId) :
    Prop :=
  ∃ before step after, steps = early ++ .proceed call :: before ++ step :: after ∧
    step ≠ .proceed call ∧
    (w.run (early ++ .proceed call :: before)).register.stateOf t = .active ∧
    (w.run (early ++ .proceed call :: before ++ [step])).register.stateOf t ≠ .active

theorem find_proceed (hcall : s.calls.get? call = some ⟨q, stage⟩) :
    (s.perform (.proceed call)).register.find q.t = s.register.find q.t := by
  have hmove := move_perform s (.proceed call)
  generalize s.perform (.proceed call) = s' at hmove
  cases hmove with
  | rests => rfl
  | proceeds hcall' hstep =>
      cases hcall.symm.trans hcall'
      exact Register.find_step_self hstep

theorem isKnown_of_active {r : Register} (h : r.stateOf t = .active) : r.isKnown t = true := by
  by_contra hunknown
  have haborted := Register.stateOf_of_unknown (Bool.of_not_eq_true hunknown)
  exact absurd (h.symm.trans haborted) (by simp)

theorem active_of_append {late : List (ReportStep K)} (horderly : Orderly (early ++ late) w)
    (hknown : (w.run early).register.isKnown t = true)
    (hactive : (w.run (early ++ late)).register.stateOf t = .active) :
    (w.run early).register.stateOf t = .active := by
  rw [run_append] at hactive
  by_contra hnot
  exact (later_run ((orderly_append _ _ _).mp horderly).2).ne_active hknown hnot hactive

/-- A transaction that was found active is so still, unless it has been struck since. -/
theorem Checked.active_iff (h : w.Checked steps early call q) (horderly : Orderly steps w) :
    (w.run steps).register.stateOf q.t = .active ↔ ¬ w.Struck steps early call q.t := by
  constructor
  · rintro hactive ⟨before, step, after, hsplit, -, hwas, hnot⟩
    have hends : steps = (early ++ .proceed call :: before ++ [step]) ++ after := by simp [hsplit]
    rw [hends] at hactive horderly
    have hknown := isKnown_of_active hwas
    have hstays := later_run ((orderly_append _ [step] _).mp
      ((orderly_append _ after _).mp horderly).1).2
    rw [← run_append] at hstays
    exact hnot (active_of_append horderly (hstays.known _ hknown) hactive)
  · intro hspared
    obtain ⟨rest, rfl, hnone⟩ := h.since
    by_contra hnot
    refine hspared ?_
    -- The first moment at which it is not active any more is the one after the step that is sought.
    clear hspared horderly
    induction rest using List.reverseRecOn with
    | nil =>
        have hself : (w.run (early ++ [.proceed call])).register.find q.t =
            (w.run early).register.find q.t := by
          rw [run_concat]
          exact find_proceed h.found
        rw [Register.stateOf, hself] at hnot
        exact absurd h.active hnot
    | append_singleton rest step ih =>
        have hother : step ≠ .proceed call := fun hc => hnone (by simp [hc])
        by_cases hwas : (w.run (early ++ .proceed call :: rest)).register.stateOf q.t = .active
        · exact ⟨rest, step, [], by simp, hother, hwas, by simpa using hnot⟩
        · have hrest : .proceed call ∉ rest := fun hin => hnone (List.mem_append_left _ hin)
          obtain ⟨before, step', after, hsplit, hne, hat, hlost⟩ :=
            ih hrest ⟨⟨rest, rfl, hrest⟩, h.found, h.active⟩ hwas
          refine ⟨before, step', after ++ [step], ?_, hne, hat, hlost⟩
          rw [← List.cons_append, ← List.append_assoc, hsplit]
          simp

/-- The answer that a step brings to a call.  A call that is granted goes at once. -/
def answer? [Labelled K] (call : Nat) (s : ReportTraffic K) :
    ReportStep K → Option (Except StoreError Unit)
  | .proceed call' =>
    if call' = call ∧ s.calls.contains call ∧ ¬ (s.perform (.proceed call)).calls.contains call then
      some (.ok ())
    else none
  | .tell call' => if call' = call then (s.told? call).map .error else none
  | _ => none

/-- A call that is granted has made its attempt. -/
theorem attempt_of_granted [Labelled K] (hcall : s.calls.get? call = some ⟨q, stage⟩)
    (hanswer : s.answer? call step = some (.ok ())) (hopen : stage ≠ .ended .granted) :
    step = .proceed call ∧ stage = .attempt ∧ ∃ register table,
      s.reporter.table.attempt s.now q.t q.key q.mode true s.register =
        (.granted, register, table) ∧
      ∀ key, (s.perform step).reporter.table.requests key = table.requests key := by
  cases step with
  | proceed call' =>
      simp only [answer?] at hanswer
      split at hanswer
      · rename_i hgoes
        obtain ⟨rfl, -, hgone⟩ := hgoes
        have hmove := move_perform s (.proceed call')
        generalize s.perform (.proceed call') = s' at hmove hgone ⊢
        cases hmove with
        | rests hidle => exact absurd ((hidle call' rfl).symm.trans hcall) (by simp)
        | proceeds hcall' hstep =>
            cases hcall.symm.trans hcall'
            simp only [FinMap.contains, FinMap.get?_change_self] at hgone
            split at hgone
            · rename_i hgranted
              subst hgranted
              cases hstep with
              | granted hattempt => exact ⟨rfl, rfl, _, _, hattempt, fun _ => rfl⟩
              | rests => exact absurd rfl hopen
            · exact absurd rfl hgone
      · exact absurd hanswer (by simp)
  | tell call' =>
      simp only [answer?] at hanswer
      split at hanswer
      · simp at hanswer
      · exact absurd hanswer (by simp)
  | _ => exact absurd hanswer (by simp [answer?])

/-- A call that fails has left the queue. -/
theorem failed_of_answer [Labelled K] {e : StoreError}
    (hcall : s.calls.get? call = some ⟨q, stage⟩)
    (hanswer : s.answer? call step = some (.error e)) :
    step = .tell call ∧ ∃ error, stage = .ended (.failed error) ∧
      e = s.reporter.failure s.register q.t q.key error := by
  cases step with
  | tell call' =>
      simp only [answer?] at hanswer
      split at hanswer
      · rename_i hsame
        obtain ⟨e', htold, heq⟩ := Option.map_eq_some_iff.mp hanswer
        cases heq
        simp only [told?, hcall] at htold
        split at htold
        · rename_i q' error hfound
          cases hfound
          cases htold
          exact ⟨congrArg _ hsame, _, rfl, rfl⟩
        · exact absurd htold (by simp)
      · exact absurd hanswer (by simp)
  | proceed call' =>
      simp only [answer?] at hanswer
      split at hanswer <;> exact absurd hanswer (by simp)
  | _ => exact absurd hanswer (by simp [answer?])

/--
**How a report ends.**  In every run in which each transaction has one report without an answer at
most, let a step bring a call its answer.

If the call is granted, its transaction holds the key in a mode that is strong enough; it was active
when the call looked, which has taken no step between that look and the attempt, and it is active
still exactly unless somebody else's step has ended its activity in between.

If the call fails, then either the deadline of its transaction has come, and the failure is a conflict
with another transaction whose entry on the key, granted or queued, was in the way of the last attempt;
or its transaction is not active, and the failure is the one that its status records.  In both cases
its transaction is not queued on the key, and neither saying so nor the step before, in which the call
left the queue, has taken anything from what anybody holds.
-/
theorem report_ends [Labelled K] (source : String) (shards : Nat) {steps : List (ReportStep K)}
    {step : ReportStep K} {s s' : ReportTraffic K} {call : Nat} {q : ReportRequest K}
    {stage : LockStage TxnId} {result : Except StoreError Unit}
    (horderly : Orderly steps (new source shards)) (hs : s = (new source shards).run steps)
    (hs' : s' = s.perform step) (hcall : s.calls.get? call = some ⟨q, stage⟩)
    (hanswer : s.answer? call step = some result) :
    (result = .ok () →
      (∃ held, (q.t, held) ∈ s'.reporter.table.holders q.key ∧ held.max q.mode = held) ∧
        ∃ early, (new source shards).Checked steps early call q ∧
          (s'.register.stateOf q.t = .active ↔
            ¬ (new source shards).Struck steps early call q.t)) ∧
    (∀ e, result = .error e →
      ((∃ holder early, (new source shards).LastFrom steps early call q .attempt ∧
          (new source shards).HeldUp early call q holder ∧
          (s.register.find q.t).deadline ≤ s.now ∧
          e = .aborted q.t
            (.conflict source (s.reporter.keyText (some holder) q.t q.key) (some holder))) ∨
        (s'.register.stateOf q.t ≠ .active ∧
          e = (match (s'.register.find q.t).cause with
            | some cause => .aborted q.t cause
            | none => .notActive q.t none))) ∧
      (∀ entry ∈ s'.reporter.table.requests q.key, entry.owner = q.t → entry.granted = true) ∧
      s'.reporter.table = s.reporter.table ∧
      ∃ early error, (new source shards).LastFrom steps early call q (.leaving error) ∧
        ∀ key entry, entry.granted = true →
          (entry ∈ ((new source shards).run (early ++ [.proceed call])).reporter.table.requests key ↔
            entry ∈ ((new source shards).run early).reporter.table.requests key)) := by
  have htracked : (new source shards).Tracked steps := tracked_run source shards horderly
  rw [hs] at hcall
  have haccounted := htracked.calls call q stage hcall
  have hopen : stage ≠ .ended .granted := by
    rintro rfl
    cases haccounted.traced
  rw [← hs] at hcall
  cases result with
  | ok _ =>
      refine ⟨fun _ => ?_, fun e he => absurd he (by simp)⟩
      obtain ⟨rfl, rfl, register, table, hattempt, hrequests⟩ :=
        attempt_of_granted hcall hanswer hopen
      have hd : s.reporter.table.Distinct := hs ▸ htracked.distinct
      obtain ⟨entry, hin, howner, hgranted, hmode⟩ :=
        (LockTable.attempt_spec .any hd hattempt).granted rfl
      rw [← hrequests, ← hs'] at hin
      refine ⟨⟨entry.mode, LockTable.mem_holders.mpr ⟨entry, hin, hgranted, howner, rfl⟩, hmode⟩, ?_⟩
      cases haccounted.traced with
      | @attempt early hchecked =>
          refine ⟨early, hchecked, ?_⟩
          rw [← hchecked.active_iff horderly, ← hs, hs', Register.stateOf, find_proceed hcall]
          rfl
  | error e =>
      refine ⟨fun hok => absurd hok (by simp), fun e' he => ?_⟩
      cases he
      obtain ⟨rfl, error, rfl, rfl⟩ := failed_of_answer hcall hanswer
      have htold : s' = { s with calls := s.calls.erase call } := by
        rw [hs']
        simp only [perform, hcall]
      have hsource : s.reporter.source = source := hs ▸ source_run steps (new source shards)
      cases haccounted.traced with
      | @failed early _ hexcused hgone =>
          rw [htold]
          refine ⟨?_, hs ▸ hgone.unqueued, rfl, early, error, hgone.toLastFrom, hgone.kept⟩
          cases hexcused with
          | @timeout early' holder hattempt hheld hlate =>
              refine Or.inl ⟨holder, early', hattempt, hheld, ?_, ?_⟩
              · rw [hs, ← haccounted.deadline]
                exact hlate
              · rw [LockingReporter.failure, hsource]
          | notActive hstate => exact Or.inr ⟨hs ▸ hstate, rfl⟩

/-- Two transactions read an object; the younger one waits to write it, until its deadline. -/
def lateUpgrade : List (ReportStep ObjectId) :=
  [.change fun r => (r.start ⟨1⟩ ⟨1, 0⟩ 100).start ⟨2⟩ ⟨2, 0⟩ 5,
    .report 1 ⟨1⟩ ⟨7⟩ .read, .proceed 1, .proceed 1,
    .report 2 ⟨2⟩ ⟨7⟩ .read, .proceed 2, .proceed 2,
    .report 2 ⟨2⟩ ⟨7⟩ .write, .proceed 2, .proceed 2, .proceed 2,
    .tick 5, .resume 2, .proceed 2, .proceed 2, .proceed 2, .proceed 2]

/-- The younger one is told that the elder was in the way, and goes on reading. -/
theorem report_ends_lateUpgrade :
    ∃ s : ReportTraffic ObjectId, s = (new "objects" 1).run lateUpgrade ∧
      s.answer? 2 (.tell 2) =
        some (.error (.aborted ⟨2⟩ (.conflict "objects" "ObjectId(7)" (some ⟨1⟩)))) ∧
      (∃ early, HeldUp (new "objects" 1) early 2 ⟨⟨2⟩, (⟨7⟩ : ObjectId), .write, 5⟩ ⟨1⟩) ∧
      (⟨2⟩, LockMode.read) ∈ (s.perform (.tell 2)).reporter.table.holders ⟨7⟩ := by
  refine ⟨_, rfl, ?_⟩
  have horderly : Orderly lateUpgrade (new "objects" 1) :=
    ⟨(Register.later_start rfl _ _).trans (Register.later_start rfl _ _), ⟨rfl, by decide⟩, trivial,
      trivial, ⟨rfl, by decide⟩, trivial, trivial, ⟨rfl, by decide⟩, trivial, trivial, trivial,
      trivial, trivial, trivial, trivial, trivial, trivial, trivial⟩
  have hanswer : answer? 2 ((new "objects" 1).run lateUpgrade) (.tell 2) =
      some (.error (.aborted ⟨2⟩ (.conflict "objects" "ObjectId(7)" (some ⟨1⟩)))) := by
    rfl
  have hcall : ((new "objects" 1).run lateUpgrade).calls.get? 2 =
      some ⟨⟨⟨2⟩, ⟨7⟩, .write, 5⟩, .ended (.failed (.timeout (some ⟨1⟩)))⟩ := by
    rfl
  obtain ⟨hcause, -, htable, -⟩ :=
    (report_ends "objects" 1 horderly rfl rfl hcall hanswer).2 _ rfl
  refine ⟨hanswer, ?_, ?_⟩
  · rcases hcause with ⟨holder, early, -, hheld, -, heq⟩ | ⟨-, heq⟩
    · cases heq
      exact ⟨early, hheld⟩
    · cases heq
  · rw [htable]
    decide

/-- While the younger of two transactions is about to make its attempt on one object, the elder
takes another one from it. -/
def struckInBetween : List (ReportStep ObjectId) :=
  [.change fun r => (r.start ⟨1⟩ ⟨1, 0⟩ 100).start ⟨2⟩ ⟨2, 0⟩ 100,
    .report 2 ⟨2⟩ ⟨8⟩ .read, .proceed 2, .proceed 2,
    .report 2 ⟨2⟩ ⟨7⟩ .write, .proceed 2,
    .report 1 ⟨1⟩ ⟨8⟩ .write, .proceed 1, .proceed 1]

/-- **Whoever is granted a key need not be active.**  The younger one is granted the first object
although it has been wounded. -/
theorem exists_granted_inactive :
    ∃ s s' : ReportTraffic ObjectId, Orderly struckInBetween (new "objects" 1) ∧
      s = (new "objects" 1).run struckInBetween ∧ s' = s.perform (.proceed 2) ∧
      s.answer? 2 (.proceed 2) = some (.ok ()) ∧
      (⟨2⟩, LockMode.write) ∈ s'.reporter.table.holders ⟨7⟩ ∧
      (s'.register.find ⟨2⟩).state = .aborted ∧
      (s'.register.find ⟨2⟩).cause = some (.wounded ⟨1⟩) := by
  refine ⟨_, _, ?_, rfl, rfl, ?_, ?_, ?_, ?_⟩
  · exact ⟨(Register.later_start rfl _ _).trans (Register.later_start rfl _ _), ⟨rfl, by decide⟩,
      trivial, trivial, ⟨rfl, by decide⟩, trivial, ⟨rfl, by decide⟩, trivial, trivial, trivial⟩
  · rfl
  · decide
  · decide
  · decide

end ReportTraffic

end ObjectStore
