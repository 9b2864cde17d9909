/-
Readings of one hybrid clock that are taken by many calls at once.

A call sees the physical time, then the last reading that was given, and then gives its own, unless
another one has been given since it looked: in that case it begins again.  Other calls may take
their steps between any two of these, and the physical clock may show anything at any moment.

`ClockTraffic.readings_increase` says that readings increase strictly in the order in which they are
given, up to the latest reading that there is.  What carries it is that the last reading which the
clock knows is never behind one that was given.
-/
import ObjectStore.Clock
import ObjectStore.FinMap
import ObjectStore.Locking.Seniority

namespace ObjectStore

namespace HybridClock

variable {physical seen : Nat}

/-- A proposal goes beyond the reading that was seen, if there is anything beyond it. -/
theorem lt_propose (h : seen < latest) : seen < propose physical seen := by
  have hstep : seen + 1 ≤ Nat.min (seen + 1) latest := Nat.le_min.mpr ⟨Nat.le_refl _, h⟩
  exact Nat.lt_of_lt_of_le (Nat.lt_of_succ_le hstep) (Nat.le_max_right _ _)

/-- At the top it stays there. -/
theorem propose_latest (h : physical ≤ latest) : propose physical latest = latest := by
  have hmin : Nat.min (latest + 1) latest = latest := Nat.min_eq_right (Nat.le_succ _)
  unfold propose
  rw [hmin]
  exact Nat.max_eq_right h

theorem propose_le (h : physical ≤ latest) : propose physical seen ≤ latest :=
  Nat.max_le.mpr ⟨h, Nat.min_le_right _ _⟩

/-- The second of two readings is later than the first, or both are the latest there is. -/
def Follows (a b : Nat) : Prop := a < b ∨ a = latest ∧ b = latest

theorem Follows.of_le {a last b : Nat} (h : Follows last b) (hle : a ≤ last) (hb : b ≤ latest) :
    Follows a b := by
  unfold Follows at *
  omega

theorem follows_propose (hphysical : physical ≤ latest) (hseen : seen ≤ latest) :
    Follows seen (propose physical seen) := by
  rcases Nat.lt_or_eq_of_le hseen with hlt | rfl
  · exact Or.inl (lt_propose hlt)
  · exact Or.inr ⟨rfl, propose_latest hphysical⟩

theorem Follows.le {a b : Nat} (h : Follows a b) : a ≤ b := by
  unfold Follows at h
  omega

theorem toNat_le_latest (physical : UInt64) : physical.toNat ≤ latest :=
  Nat.le_of_lt_succ physical.toNat_lt

end HybridClock

/-- Whoever is stamped with a later reading is younger, whatever the tiebreakers. -/
theorem Seniority.youngerThan_of_lt {a b : Nat} (h : a < b) (ta tb : Nat) :
    Seniority.youngerThan ⟨b, tb⟩ ⟨a, ta⟩ = true := by
  simp [youngerThan, olderThan, h]

/-! ### Many calls -/

/-- Where a call that takes a reading stands. -/
inductive ReadingStage where
  /-- It has seen the physical time. -/
  | timed (physical : Nat)
  /-- It has seen the last reading, too. -/
  | informed (physical seen : Nat)
  deriving DecidableEq, Repr

/-- The physical time that a call at a stage has seen. -/
def ReadingStage.physical : ReadingStage → Nat
  | .timed physical => physical
  | .informed physical _ => physical

/-- What may happen next at a clock. -/
inductive ClockStep where
  /-- The physical clock shows another time, be it later or earlier. -/
  | drift (physical : UInt64)
  /-- A call begins, or begins again, by seeing the physical time. -/
  | look (call : Nat)
  /-- It sees the last reading. -/
  | load (call : Nat)
  /-- It gives its own reading, if that is still the last one. -/
  | exchange (call : Nat)

/-- A reading, and the call that gave it. -/
structure GivenReading where
  call : Nat
  reading : Nat
  deriving DecidableEq, Repr

/-- A clock in use, and the readings that have been given, the first one first. -/
structure ClockTraffic where
  clock : HybridClock
  stages : FinMap Nat ReadingStage
  given : List GivenReading

namespace ClockTraffic

open HybridClock

/-- A clock of which nobody has taken a reading. -/
def new (physical : UInt64) : ClockTraffic := ⟨.new physical.toNat, ∅, []⟩

/-- Takes a step; one that is not possible now does nothing. -/
def perform (c : ClockTraffic) : ClockStep → ClockTraffic
  | .drift physical => { c with clock := { c.clock with physical := physical.toNat } }
  | .look call =>
    if c.stages.contains call then c
    else { c with stages := c.stages.insert call (.timed c.clock.physical) }
  | .load call =>
    match c.stages.get? call with
    | some (.timed physical) =>
      { c with stages := c.stages.insert call (.informed physical c.clock.last) }
    | _ => c
  | .exchange call =>
    match c.stages.get? call with
    | some (.informed physical seen) =>
      let reading := propose physical seen
      match c.clock.exchange seen reading with
      | (true, clock) => ⟨clock, c.stages.erase call, c.given ++ [⟨call, reading⟩]⟩
      | (false, clock) => ⟨clock, c.stages.erase call, c.given⟩
    | _ => c

/-- Takes steps one after another. -/
def run (steps : List ClockStep) (c : ClockTraffic) : ClockTraffic := steps.foldl perform c

variable {c : ClockTraffic}

/-- A call that nobody comes between takes a reading of the clock. -/
theorem run_alone {call : Nat} (h : c.stages.get? call = none) :
    (c.run [.look call, .load call, .exchange call]).clock = c.clock.read.2 ∧
      (c.run [.look call, .load call, .exchange call]).given =
        c.given ++ [⟨call, c.clock.read.1⟩] := by
  simp [run, perform, FinMap.contains, h, HybridClock.exchange, HybridClock.read]

/-! ### What a step comes to -/

/-- The ways in which a step can go: the clock is as it was, and nothing is given, except that the
physical time changes or a call that is informed gives its reading. -/
inductive Moved (c : ClockTraffic) : ClockTraffic → Prop where
  | quiet (stages : FinMap Nat ReadingStage)
    (hstages : ∀ call stage, stages.get? call = some stage →
      c.stages.get? call = some stage ∨ stage = .timed c.clock.physical ∨
        ∃ physical, c.stages.get? call = some (.timed physical) ∧
          stage = .informed physical c.clock.last) :
    Moved c { c with stages }
  | drifted (physical : UInt64) :
    Moved c { c with clock := { c.clock with physical := physical.toNat } }
  | gave {call physical : Nat}
    (hstage : c.stages.get? call = some (.informed physical c.clock.last)) :
    Moved c ⟨{ c.clock with last := propose physical c.clock.last }, c.stages.erase call,
      c.given ++ [⟨call, propose physical c.clock.last⟩]⟩

theorem moved_perform (c : ClockTraffic) (step : ClockStep) : Moved c (c.perform step) := by
  have hstill : Moved c c := .quiet c.stages fun _ _ h => Or.inl h
  cases step with
  | drift physical => exact .drifted physical
  | look call =>
      unfold perform
      simp only
      split
      · exact hstill
      · refine .quiet _ fun call' stage h => ?_
        rw [FinMap.get?_insert] at h
        split at h
        · exact Or.inr (Or.inl (Option.some.inj h).symm)
        · exact Or.inl h
  | load call =>
      unfold perform
      simp only
      split
      · rename_i physical hstage
        refine .quiet _ fun call' stage h => ?_
        rw [FinMap.get?_insert] at h
        split at h
        · rename_i hcall
          subst hcall
          exact Or.inr (Or.inr ⟨physical, hstage, (Option.some.inj h).symm⟩)
        · exact Or.inl h
      · exact hstill
  | exchange call =>
      unfold perform
      simp only
      split
      · rename_i physical seen hstage
        by_cases hseen : c.clock.last = seen
        · subst hseen
          simp only [HybridClock.exchange, if_true]
          exact .gave hstage
        · simp only [HybridClock.exchange, if_neg hseen]
          exact .quiet _ fun call' stage h => Or.inl (FinMap.get?_of_get?_erase h)
      · exact hstill

/-! ### The order of readings -/

/-- The readings follow one another, none is ahead of the last one that the clock knows, and no time
that anybody sees is beyond the latest. -/
structure Ordered (c : ClockTraffic) : Prop where
  given : c.given.Pairwise fun a b => Follows a.reading b.reading
  last : ∀ r ∈ c.given, r.reading ≤ c.clock.last
  bound : c.clock.last ≤ latest
  physical : c.clock.physical ≤ latest
  stages : ∀ call stage, c.stages.get? call = some stage → stage.physical ≤ latest

theorem ordered_new (physical : UInt64) : (new physical).Ordered where
  given := .nil
  last := fun r hr => absurd hr List.not_mem_nil
  bound := Nat.zero_le _
  physical := toNat_le_latest physical
  stages := fun _ _ h => absurd h (by simp [new])

theorem Ordered.perform (h : c.Ordered) (step : ClockStep) : (c.perform step).Ordered := by
  have hmoved := moved_perform c step
  generalize c.perform step = c' at hmoved ⊢
  cases hmoved with
  | quiet stages hstages =>
      refine ⟨h.given, h.last, h.bound, h.physical, fun call stage hstage => ?_⟩
      rcases hstages call stage hstage with hold | rfl | ⟨physical, hold, rfl⟩
      · exact h.stages call stage hold
      · exact h.physical
      · exact h.stages call (.timed physical) hold
  | drifted physical => exact ⟨h.given, h.last, h.bound, toNat_le_latest physical, h.stages⟩
  | @gave call physical hstage =>
      have hphysical : physical ≤ latest := h.stages call _ hstage
      have hfollows := follows_propose hphysical h.bound
      have hbound : propose physical c.clock.last ≤ latest := propose_le hphysical
      refine ⟨List.pairwise_append.mpr ⟨h.given, List.pairwise_singleton _ _, ?_⟩, ?_, hbound,
        h.physical, fun call' stage hleft => h.stages call' stage (FinMap.get?_of_get?_erase hleft)⟩
      · intro a ha b hb
        obtain rfl := List.mem_singleton.mp hb
        exact hfollows.of_le (h.last a ha) hbound
      · intro r hr
        rcases List.mem_append.mp hr with hold | hnew
        · exact Nat.le_trans (h.last r hold) hfollows.le
        · obtain rfl := List.mem_singleton.mp hnew
          exact Nat.le_refl _

theorem ordered_run (h : c.Ordered) (steps : List ClockStep) : (c.run steps).Ordered := by
  induction steps generalizing c with
  | nil => exact h
  | cons step rest ih => exact ih (h.perform step)

/--
**Readings increase.**  Let any number of calls take readings of one clock, their steps in any order
and the physical clock showing anything.  Of two readings the one that is given later is greater
than the one that is given earlier, unless that one is the latest there is, and a seniority with the
later reading is younger.  So all readings before the latest are different.
-/
theorem readings_increase (physical : UInt64) (steps : List ClockStep) :
    (((new physical).run steps).given.Pairwise fun a b =>
      a.reading < latest → a.reading < b.reading ∧
        ∀ ta tb, Seniority.youngerThan ⟨b.reading, tb⟩ ⟨a.reading, ta⟩ = true) ∧
    ((((new physical).run steps).given.map (·.reading)).filter (· < latest)).Nodup := by
  have hgiven := (ordered_run (ordered_new physical) steps).given
  constructor
  · refine hgiven.imp fun {a b} hfollows hlt => ?_
    have hlater : a.reading < b.reading :=
      hfollows.resolve_right fun htop => absurd htop.1 (Nat.ne_of_lt hlt)
    exact ⟨hlater, Seniority.youngerThan_of_lt hlater⟩
  · rw [List.nodup_iff_pairwise_ne, List.pairwise_filter, List.pairwise_map]
    refine hgiven.imp fun {a b} hfollows hlt _ => ?_
    have hbefore : a.reading < latest := of_decide_eq_true hlt
    exact Nat.ne_of_lt (hfollows.resolve_right fun htop => absurd htop.1 (Nat.ne_of_lt hbefore))

/-- The first call is overtaken by the second one and begins again, at a time that is earlier. -/
example : ((new 70).run [.look 1, .load 1, .look 2, .load 2, .exchange 2, .exchange 1, .drift 5,
    .look 1, .load 1, .exchange 1]).given = [⟨2, 70⟩, ⟨1, 71⟩] := by
  decide

end ClockTraffic

end ObjectStore
