/-
In whose words a conflict names its key.

A report that fails at its deadline learns who was in the way, and then looks for a description of
the key; in between, transactions may describe keys and end.

`Says` tells from the steps alone what a transaction has said of a key.  The descriptions of the
reporter are exactly that (`descriptionBy?_run`), so that the words of a conflict can be read off
the steps: `ReportTraffic.conflict_worded`.
-/
import Mathlib.Data.List.Induction
import ObjectStore.Proofs.Access.Run

namespace ObjectStore

namespace ReportTraffic

variable {K : Type} [DecidableEq K] {s : ReportTraffic K}

/-! ### What has been said -/

/-- A transaction has described the key so, and has neither described it again nor ended since. -/
def Says (steps : List (ReportStep K)) (t : TxnId) (key : K) (text : String) : Prop :=
  ∃ before after, steps = before ++ .describe t key text :: after ∧
    (∀ other, .describe t key other ∉ after) ∧ .forget t ∉ after

omit [DecidableEq K] in
/-- The last step says something itself, or leaves what was said before, or takes it back. -/
theorem says_concat {steps : List (ReportStep K)} {step : ReportStep K} {t : TxnId} {key : K}
    {text : String} :
    Says (steps ++ [step]) t key text ↔ step = .describe t key text ∨
      Says steps t key text ∧ (∀ other, step ≠ .describe t key other) ∧ step ≠ .forget t := by
  constructor
  · rintro ⟨before, after, hsplit, hdescribed, hforgot⟩
    rcases List.eq_nil_or_concat after with rfl | ⟨after, last, rfl⟩
    · obtain ⟨-, hlast⟩ := List.append_inj' hsplit rfl
      exact Or.inl (List.singleton_inj.mp hlast)
    · rw [List.concat_eq_append] at hsplit hdescribed hforgot
      rw [← List.cons_append, ← List.append_assoc] at hsplit
      obtain ⟨hsteps, hlast⟩ := List.append_inj' hsplit rfl
      obtain rfl := List.singleton_inj.mp hlast
      refine Or.inr ⟨⟨before, after, hsteps, fun other hin => ?_, fun hin => ?_⟩, ?_, ?_⟩
      · exact hdescribed other (List.mem_append_left _ hin)
      · exact hforgot (List.mem_append_left _ hin)
      · rintro other rfl
        exact hdescribed other (List.mem_append_right _ (List.mem_singleton_self _))
      · rintro rfl
        exact hforgot (List.mem_append_right _ (List.mem_singleton_self _))
  · rintro (rfl | ⟨⟨before, after, rfl, hdescribed, hforgot⟩, hother, hlast⟩)
    · exact ⟨steps, [], rfl, fun _ => List.not_mem_nil, List.not_mem_nil⟩
    · refine ⟨before, after ++ [step], by simp, fun other hin => ?_, fun hin => ?_⟩
      · rcases List.mem_append.mp hin with hold | hnew
        · exact hdescribed other hold
        · exact hother other (List.mem_singleton.mp hnew).symm
      · rcases List.mem_append.mp hin with hold | hnew
        · exact hforgot hold
        · exact hlast (List.mem_singleton.mp hnew).symm

/-! ### What a step does -/

section Invariants

variable [Hashable K]

theorem Move.descriptions {s' : ReportTraffic K} {step : ReportStep K} (h : s.Move step s')
    (hdescribe : ∀ t key text, step ≠ .describe t key text) (hforget : ∀ t, step ≠ .forget t) :
    s'.reporter.descriptions = s.reporter.descriptions := by
  cases h with
  | describes t key text => exact absurd rfl (hdescribe t key text)
  | forgets t => exact absurd rfl (hforget t)
  | _ => rfl

/-- A step leaves what transactions have said, except that one describes a key or is forgotten. -/
theorem descriptionBy?_perform (s : ReportTraffic K) (step : ReportStep K) (t : TxnId) (key : K)
    (text : String) :
    (s.perform step).reporter.descriptionBy? t key = some text ↔ step = .describe t key text ∨
      s.reporter.descriptionBy? t key = some text ∧
        (∀ other, step ≠ .describe t key other) ∧ step ≠ .forget t := by
  have hsilent : (∀ t key text, step ≠ .describe t key text) → (∀ t, step ≠ .forget t) →
      (s.perform step).reporter.descriptionBy? t key = s.reporter.descriptionBy? t key :=
    fun hdescribe hforget =>
      congrArg (·.get? (t, key)) ((move_perform s step).descriptions hdescribe hforget)
  cases step with
  | describe t' key' text' =>
      have hget : (s.perform (.describe t' key' text')).reporter.descriptionBy? t key =
          if (t', key') = (t, key) then some text' else s.reporter.descriptionBy? t key :=
        FinMap.get?_insert _ _ _ _
      rw [hget]
      by_cases hsame : (t', key') = (t, key)
      · obtain ⟨rfl, rfl⟩ := Prod.mk.inj hsame
        simp
      · have hother : ∀ other, ReportStep.describe t' key' text' ≠ .describe t key other := by
          rintro other heq
          cases heq
          exact hsame rfl
        simp [hsame, hother]
  | forget t' =>
      have hget : (s.perform (.forget t')).reporter.descriptionBy? t key =
          (s.reporter.descriptionBy? t key).filter fun _ => decide (t ≠ t') :=
        FinMap.get?_filter _ _ _
      rw [hget, Option.filter_eq_some_iff]
      simp [@eq_comm _ t t']
  | _ =>
      rw [hsilent (by simp) (by simp)]
      simp

/-- **The reporter knows what has been said**, and nothing else. -/
theorem descriptionBy?_run (source : String) (shards : Nat) (steps : List (ReportStep K))
    (t : TxnId) (key : K) (text : String) :
    ((new source shards).run steps).reporter.descriptionBy? t key = some text ↔
      Says steps t key text := by
  induction steps using List.reverseRecOn generalizing text with
  | nil => exact ⟨fun h => absurd h (by simp [run, new, LockingReporter.named,
      LockingReporter.descriptionBy?]), fun ⟨before, after, hsplit, _⟩ => absurd hsplit (by simp)⟩
  | append_singleton steps step ih => rw [run_concat, descriptionBy?_perform, says_concat, ih]

/-- A call that has been blocked has somebody else in its way, and names that one to the end. -/
def NamesOther (t : TxnId) : LockStage TxnId → Prop
  | .parked _ holder => holder ≠ t
  | .leaving error | .ended (.failed error) =>
    ∀ holder, error = .timeout holder → ∃ other, holder = some other ∧ other ≠ t
  | _ => True

theorem NamesOther.step {now deadline : Nat} {t : TxnId} {key : K} {mode : LockMode}
    {r r' : Register} {table table' : LockTable K TxnId} {stage stage' : LockStage TxnId}
    (h : NamesOther t stage) (hd : table.Distinct)
    (hstep : LockTable.StepOutcome now deadline t key mode r table stage stage' r' table') :
    NamesOther t stage' := by
  cases hstep with
  | active => trivial
  | inactive => exact fun _ hc => absurd hc (by simp)
  | granted => trivial
  | blocked hattempt =>
      obtain ⟨entry, -, howner, hbars⟩ := LockTable.attempt_blocked .any hd hattempt
      exact fun hc => hbars.other (howner.trans hc)
  | @late signal holder =>
      intro holder' heq
      cases heq
      exact ⟨holder, rfl, h⟩
  | waits => trivial
  | leaves => exact h
  | rests => exact h

/-- No call ever has its own transaction to name. -/
structure Sound (s : ReportTraffic K) : Prop where
  distinct : s.reporter.table.Distinct
  others : ∀ call c, s.calls.get? call = some c → NamesOther c.t c.stage

theorem sound_new (source : String) (shards : Nat) :
    (new source shards : ReportTraffic K).Sound where
  distinct := LockTable.distinct_ofShards shards
  others := fun _ _ h => absurd h (by simp [new])

theorem Sound.perform (h : s.Sound) (step : ReportStep K) : (s.perform step).Sound := by
  have hmove := move_perform s step
  refine ⟨hmove.distinct h.distinct, fun call c hcall => ?_⟩
  generalize s.perform step = s' at hmove hcall
  cases hmove with
  | reports _ =>
      rw [FinMap.get?_insert] at hcall
      split at hcall
      · cases hcall
        trivial
      · exact h.others call c hcall
  | proceeds hbefore hstep =>
      rw [FinMap.get?_change] at hcall
      split at hcall
      · split at hcall
        · exact absurd hcall (by simp)
        · cases hcall
          exact (h.others _ _ hbefore).step h.distinct hstep
      · exact h.others call c hcall
  | resumes _ =>
      rw [FinMap.get?_insert] at hcall
      split at hcall
      · cases hcall
        trivial
      · exact h.others call c hcall
  | tells _ => exact h.others call c (FinMap.get?_of_get?_erase hcall)
  | _ => exact h.others call c hcall

theorem sound_run (h : s.Sound) (steps : List (ReportStep K)) : (s.run steps).Sound := by
  induction steps generalizing s with
  | nil => exact h
  | cons step rest ih => exact ih (h.perform step)

end Invariants

/-! ### The words of a conflict -/

/-- In whose words a conflict between two transactions names the key: in those of the one in the
way, if it has said something, else in those of the one that waited, else in those of the key. -/
inductive Wording [Labelled K] (steps : List (ReportStep K)) (holder t : TxnId) (key : K) :
    String → Prop where
  | holder {text : String} (h : Says steps holder key text) : Wording steps holder t key text
  | waiter {text : String} (hholder : ∀ other, ¬ Says steps holder key other)
    (h : Says steps t key text) : Wording steps holder t key text
  | key (hholder : ∀ other, ¬ Says steps holder key other)
    (hwaiter : ∀ other, ¬ Says steps t key other) :
    Wording steps holder t key (Labelled.label key)

/-- A reporter that knows what has been said finds these words, and there are no others. -/
theorem wording_iff [Labelled K] {steps : List (ReportStep K)} {l : LockingReporter K}
    (h : ∀ t key text, l.descriptionBy? t key = some text ↔ Says steps t key text)
    {holder t : TxnId} {key : K} {text : String} :
    Wording steps holder t key text ↔ text = l.keyText (some holder) t key := by
  have hnone : ∀ t, l.descriptionBy? t key = none ↔ ∀ other, ¬ Says steps t key other := by
    intro t
    rw [Option.eq_none_iff_forall_ne_some]
    exact forall_congr' fun other => not_congr (h t key other)
  unfold LockingReporter.keyText
  rw [Option.bind_some]
  constructor
  · intro hwording
    cases hwording with
    | holder hsays => simp [(h _ _ _).mpr hsays]
    | waiter hholder hsays => simp [(hnone _).mpr hholder, (h _ _ _).mpr hsays]
    | key hholder hwaiter => simp [(hnone _).mpr hholder, (hnone _).mpr hwaiter]
  · rintro rfl
    cases hholder : l.descriptionBy? holder key with
    | some text => exact .holder ((h _ _ _).mp hholder)
    | none =>
        cases hwaiter : l.descriptionBy? t key with
        | some text => exact .waiter ((hnone _).mp hholder) ((h _ _ _).mp hwaiter)
        | none => exact .key ((hnone _).mp hholder) ((hnone _).mp hwaiter)

/--
**A conflict is in the words of the two that it is about.**  After any steps of any transactions,
let a call say that it has failed.  If its time has run out, it raises a conflict of its transaction
with another one that was in the way, and the key is named in the words of that one, if it has
described the key since it last ended, else in those of its own transaction, else in those of the
key.  If its transaction was no longer active, it raises no conflict of its own but repeats the cause
on record.
-/
theorem conflict_worded [Hashable K] [Labelled K] (source : String) (shards : Nat)
    (steps : List (ReportStep K)) {s : ReportTraffic K} (hs : s = (new source shards).run steps)
    {call : Nat} {t : TxnId} {key : K} {mode : LockMode} {deadline : Nat} {error : LockError TxnId}
    (hcall : s.calls.get? call = some ⟨⟨t, key, mode, deadline⟩, .ended (.failed error)⟩) :
    (∃ holder text, error = .timeout (some holder) ∧ holder ≠ t ∧
      s.told? call = some (.aborted t (.conflict source text (some holder))) ∧
      ∀ words, Wording steps holder t key words ↔ words = text) ∨
    (error = .notActive ∧ s.told? call =
      some (match (s.register.find t).cause with
        | some cause => .aborted t cause
        | none => .notActive t none)) := by
  have htold : s.told? call = some (s.reporter.failure s.register t key error) := by
    simp only [told?, hcall]
  rw [htold]
  cases error with
  | notActive => exact Or.inr ⟨rfl, rfl⟩
  | timeout holder =>
      have hsound : s.Sound := hs ▸ sound_run (sound_new source shards) steps
      have hsource : s.reporter.source = source := by rw [hs, source_run]; rfl
      obtain ⟨holder, rfl, hne⟩ := hsound.others call _ hcall holder rfl
      refine Or.inl ⟨holder, s.reporter.keyText (some holder) t key, rfl, hne, ?_, fun words => ?_⟩
      · rw [← hsource]
        rfl
      · exact wording_iff fun t key text => hs ▸ descriptionBy?_run source shards steps t key text

/-- The eldest writes an object, and all three describe it.  The second one waits to read it until
its time runs out; before it says so, the eldest ends. -/
def endsBeforeTold : List (ReportStep ObjectId) :=
  [.change fun r => ((r.start ⟨1⟩ ⟨1, 0⟩ 100).start ⟨2⟩ ⟨2, 0⟩ 5).start ⟨3⟩ ⟨3, 0⟩ 100,
    .report 1 ⟨1⟩ ⟨7⟩ .write, .proceed 1, .proceed 1, .describe ⟨1⟩ ⟨7⟩ "first",
    .describe ⟨2⟩ ⟨7⟩ "second", .report 2 ⟨2⟩ ⟨7⟩ .read, .proceed 2, .proceed 2, .proceed 2, .tick 5,
    .describe ⟨3⟩ ⟨7⟩ "third", .resume 2, .proceed 2, .proceed 2, .proceed 2, .proceed 2,
    .release ⟨1⟩, .forget ⟨1⟩]

/-- The second one says it in its own words, because those of the eldest are forgotten. -/
theorem conflict_worded_endsBeforeTold :
    ∃ s : ReportTraffic ObjectId, s = (new "objects" 1).run endsBeforeTold ∧
      s.told? 2 = some (.aborted ⟨2⟩ (.conflict "objects" "second" (some ⟨1⟩))) ∧
      ∀ words, Wording endsBeforeTold ⟨1⟩ ⟨2⟩ (⟨7⟩ : ObjectId) words ↔ words = "second" := by
  refine ⟨_, rfl, ?_⟩
  have htold : ((new "objects" 1).run endsBeforeTold).told? 2 =
      some (.aborted ⟨2⟩ (.conflict "objects" "second" (some ⟨1⟩))) := by
    decide
  have hcall : ((new "objects" 1).run endsBeforeTold).calls.get? 2 =
      some ⟨⟨⟨2⟩, ⟨7⟩, .read, 5⟩, .ended (.failed (.timeout (some ⟨1⟩)))⟩ := by
    rfl
  rcases conflict_worded "objects" 1 endsBeforeTold rfl hcall with
    ⟨holder, text, -, -, hsays, hwords⟩ | ⟨hnot, -⟩
  · rw [htold] at hsays
    cases hsays
    exact ⟨htold, hwords⟩
  · exact absurd hnot (by simp)

end ReportTraffic

end ObjectStore
