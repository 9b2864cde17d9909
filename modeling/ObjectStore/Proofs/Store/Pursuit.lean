/-
The pursuit of the next name.

An operation that depends on the gap after a position locks the next name and then asks for it again.
What comes of it is not in its hands.  A lock may be waited for, be granted or be refused; an answer
may be any name, or the end, or a failure; and between two steps of the operation others may do
anything to the store.  `Store.pursuit` is the course of the operation under all these conditions, with
a record of the lock calls that have ended and of what the questions were answered.

The record has one form.  It is a number of rounds in vain, in each of which a candidate is locked and
another one is the answer, and then what has been done about the last candidate.  Which locks there are,
how many, and where they end is read off this form.
-/
import Mathlib.Data.List.Chain
import ObjectStore.Backend.Scripted
import ObjectStore.Store.Store

namespace ObjectStore

/-- Something that is done in pursuit of the next name. -/
inductive PursuitEvent where
  /-- A lock call has ended. -/
  | locked (access : Access) (result : Except StoreError Unit)
  /-- The question for the next name has been answered. -/
  | asked (answer : Except StoreError (Option Name))

namespace PursuitEvent

/-- The access that a lock call was about. -/
def access? : PursuitEvent → Option Access
  | locked access _ => some access
  | asked _ => none

/-- The next name that was told. -/
def answer? : PursuitEvent → Option (Option Name)
  | asked (.ok next) => some next
  | _ => none

/-- The failure that was met. -/
def error? : PursuitEvent → Option StoreError
  | locked _ (.error e) => some e
  | asked (.error e) => some e
  | _ => none

end PursuitEvent

namespace Pursuit

/-- The lock calls in a record. -/
def lockCalls (events : List PursuitEvent) : List Access := events.filterMap PursuitEvent.access?

/-- The answers in a record. -/
def answers (events : List PursuitEvent) : List (Option Name) :=
  events.filterMap PursuitEvent.answer?

/-- The failures in a record. -/
def errors (events : List PursuitEvent) : List StoreError :=
  events.filterMap PursuitEvent.error?

/-- How often an answer differs from the one before, where `first` is before them all. -/
def changes (first : Option Name) : List (Option Name) → Nat
  | [] => 0
  | next :: rest => (if next = first then 0 else 1) + changes next rest

end Pursuit

/-- Whether a lock call is under way. -/
def Stage.isLocking : Stage → Bool
  | .report _ _ => true
  | .waiting _ _ _ => true
  | _ => false

section Course

variable {ρo ρn β : Type} [Reporter ρo ObjectId] [Reporter ρn NameKey] [Backend β]

/-- What one step of an operation adds to the record.  A lock call that has to wait has not ended. -/
def PursuitEvent.ofStep (t : TxnId) (s : Store ρo ρn β) : Stage → List PursuitEvent
  | .report access _ =>
    match (s.report t access).1 with
    | .allowed => [.locked access (.ok ())]
    | .waiting _ => []
    | .refused e => [.locked access (.error e)]
  | .act (.confirm scan _) => [.asked (s.call t (.nextName scan.after)).1]
  | _ => []

/-- The stage of an operation and the record, a number of steps after the operation was told a first
candidate.  Step `k` finds the store `finds k`, whatever has been done to it since the step before. -/
def Store.pursuit (t : TxnId) (scan : Scan) (first : Option Name) (finds : Nat → Store ρo ρn β) :
    Nat → Stage × List PursuitEvent
  | 0 => (.report (scan.access first) (.confirm scan first), [])
  | k + 1 =>
    let (stage, events) := pursuit t scan first finds k
    (((finds k).step t stage).1, events ++ PursuitEvent.ofStep t (finds k) stage)

end Course

/-! ### The form of the record -/

namespace Scan

/-- Rounds in vain: each candidate is locked, and the answer after it is the next candidate. -/
def vainRounds (scan : Scan) (first : Option Name) : List (Option Name) → List PursuitEvent
  | [] => []
  | other :: rest =>
    .locked (scan.access first) (.ok ()) :: .asked (.ok other) :: vainRounds scan other rest

/-- How a pursuit ends with its last candidate, and what has been done about that. -/
inductive LastRound (scan : Scan) (last : Option Name) :
    List PursuitEvent → Except StoreError (Option Name) → Prop where
  /-- The answer repeats the name that has just been locked. -/
  | settled : LastRound scan last [.locked (scan.access last) (.ok ()), .asked (.ok last)] (.ok last)
  | refused (e : StoreError) : LastRound scan last [.locked (scan.access last) (.error e)] (.error e)
  | unanswered (e : StoreError) :
    LastRound scan last [.locked (scan.access last) (.ok ()), .asked (.error e)] (.error e)

/-- What has been done about the last candidate, by the stage of the operation. -/
inductive Phase (scan : Scan) (last : Option Name) : Stage → List PursuitEvent → Prop where
  | begins : Phase scan last (.report (scan.access last) (.confirm scan last)) []
  | waits (signal : Signal) :
    Phase scan last (.waiting signal (scan.access last) (.confirm scan last)) []
  | hasLock :
    Phase scan last (.act (.confirm scan last)) [.locked (scan.access last) (.ok ())]
  | finished {done : List PursuitEvent} {found : Except StoreError (Option Name)} {stage : Stage}
    (hlast : scan.LastRound last done found)
    (hstage : stage = .ofResult (found.bind scan.answer) ∨ stage = .ended (found.bind scan.answer)) :
    Phase scan last stage done

/-- The form of a record: there have been the candidates `first` and then `moved`, no two in a row of
which are the same, and the last of them is the one that is pursued now. -/
structure Standing (scan : Scan) (first : Option Name) (moved : List (Option Name)) (stage : Stage)
    (events : List PursuitEvent) : Prop where
  moves : (first :: moved).IsChain (· ≠ ·)
  form : ∃ done, scan.Phase (moved.getLastD first) stage done ∧
    events = scan.vainRounds first moved ++ done

variable {scan : Scan} {first last other : Option Name} {moved : List (Option Name)} {stage : Stage}
variable {events done : List PursuitEvent}

theorem vainRounds_concat (first other : Option Name) (moved : List (Option Name)) :
    scan.vainRounds first (moved ++ [other]) = scan.vainRounds first moved ++
      [.locked (scan.access (moved.getLastD first)) (.ok ()), .asked (.ok other)] := by
  induction moved generalizing first with
  | nil => rfl
  | cons a rest ih =>
      rw [List.cons_append, vainRounds, vainRounds, ih a, List.getLastD_cons]
      rfl

theorem isChain_concat (h : (first :: moved).IsChain (· ≠ ·))
    (hother : other ≠ moved.getLastD first) : (first :: (moved ++ [other])).IsChain (· ≠ ·) := by
  refine List.IsChain.append h (List.isChain_singleton other) fun x hx y hy => ?_
  rw [List.getLast?_cons, Option.mem_some_iff] at hx
  obtain rfl : other = y := Option.mem_some_iff.mp hy
  rw [← hx, ← List.getLastD_eq_getLast?]
  exact hother.symm

end Scan

/-! ### One step -/

section Course

variable {ρo ρn β : Type} [Reporter ρo ObjectId] [Reporter ρn NameKey] [Backend β]
variable {scan : Scan} {first last : Option Name} {moved : List (Option Name)} {stage : Stage}
variable {events done : List PursuitEvent}

/-- Both operations that lock the next name pursue it from the first answer of the backend. -/
theorem Store.step_pursues (s : Store ρo ρn β) (t : TxnId) (finds : Nat → Store ρo ρn β) :
    (∀ after, (s.step t (.act (.beginScan after))).1 =
        match (s.call t (.nextName after)).1 with
        | .error e => .failing e
        | .ok first => (pursuit t (.next after) first finds 0).1) ∧
      ∀ name, (s.step t (.act (.removeBinding name))).1 =
        match (s.call t (.removeBinding name)).1 with
        | .error e => .failing e
        | .ok before => (pursuit t (.removal name before.isBound) before.next? finds 0).1 := by
  refine ⟨fun after => ?_, fun name => ?_⟩
  · simp only [step, act, callThen, pursuit]
    rcases s.call t (.nextName after) with ⟨_ | first, s'⟩ <;> rfl
  · simp only [step, act, callThen, pursuit]
    rcases s.call t (.removeBinding name) with ⟨_ | before, s'⟩ <;> rfl

/-- A report is followed by what has been planned, by a wait, or by a failure. -/
theorem Store.step_report (s : Store ρo ρn β) (t : TxnId) (access : Access) (plan : Plan) :
    (s.step t (.report access plan)).1 =
      match (s.report t access).1 with
      | .allowed => .act plan
      | .waiting signal => .waiting signal access plan
      | .refused e => .failing e := by
  simp only [step]
  rcases s.report t access with ⟨_ | _ | _, s'⟩ <;> rfl

/-- Another answer than the name that has been locked is the next candidate. -/
theorem Store.step_confirm (s : Store ρo ρn β) (t : TxnId) (scan : Scan) (locked : Option Name) :
    (s.step t (.act (.confirm scan locked))).1 =
      match (s.call t (.nextName scan.after)).1 with
      | .error e => .failing e
      | .ok answer =>
        if answer = locked then .ofResult (scan.answer locked)
        else .report (scan.access answer) (.confirm scan answer) := by
  simp only [step, act, callThen, NameRound.ofAnswer]
  rcases s.call t (.nextName scan.after) with ⟨_ | answer, s'⟩
  · rfl
  · by_cases hsame : answer = locked
    · simp only [if_pos hsame]
    · simp only [if_neg hsame]

/-- An operation whose answer is decided ends with it in one step, and does nothing else. -/
theorem Store.step_ofResult (s : Store ρo ρn β) (t : TxnId) (result : Except StoreError Reply) :
    (s.step t (.ofResult result)).1 = .ended result ∧
      PursuitEvent.ofStep t s (.ofResult result) = [] := by
  cases result <;> exact ⟨rfl, rfl⟩

/-- A step by which an operation with the lock on its last candidate is told another one. -/
structure Scan.Moves (scan : Scan) (last other : Option Name) (t : TxnId) (s : Store ρo ρn β)
    (stage : Stage) (done : List PursuitEvent) : Prop where
  ne : other ≠ last
  locked : done = [.locked (scan.access last) (.ok ())]
  adds : PursuitEvent.ofStep t s stage = [.asked (.ok other)]
  begins : (s.step t stage).1 = .report (scan.access other) (.confirm scan other)

/-- With the lock on a candidate the answer ends the pursuit or is another candidate. -/
theorem Scan.confirm_cases (scan : Scan) (last : Option Name) (t : TxnId) (s : Store ρo ρn β) :
    (∃ found, scan.LastRound last
        ([.locked (scan.access last) (.ok ())] ++
          PursuitEvent.ofStep t s (.act (.confirm scan last))) found ∧
        (s.step t (.act (.confirm scan last))).1 = .ofResult (found.bind scan.answer)) ∨
      ∃ other, scan.Moves last other t s (.act (.confirm scan last))
        [.locked (scan.access last) (.ok ())] := by
  have hstep := s.step_confirm t scan last
  have hadds : PursuitEvent.ofStep t s (.act (.confirm scan last)) =
      [.asked (s.call t (.nextName scan.after)).1] := rfl
  cases hcall : (s.call t (.nextName scan.after)).1 with
  | error e =>
      rw [hcall] at hstep hadds
      rw [hadds]
      exact Or.inl ⟨.error e, .unanswered e, hstep⟩
  | ok other =>
      rw [hcall] at hstep hadds
      by_cases hsame : other = last
      · rw [hadds, hsame]
        exact Or.inl ⟨.ok last, .settled, hstep.trans (if_pos hsame)⟩
      · exact Or.inr ⟨other, hsame, rfl, hadds, hstep.trans (if_neg hsame)⟩

/-- **A step goes on with the last candidate, or moves on to another one.** -/
theorem Scan.Phase.step (h : scan.Phase last stage done) (t : TxnId) (s : Store ρo ρn β) :
    scan.Phase last (s.step t stage).1 (done ++ PursuitEvent.ofStep t s stage) ∨
      ∃ other, scan.Moves last other t s stage done := by
  cases h with
  | begins =>
      refine Or.inl ?_
      rw [s.step_report, PursuitEvent.ofStep]
      cases (s.report t (scan.access last)).1 with
      | allowed => exact .hasLock
      | waiting signal => exact .waits signal
      | refused e => exact .finished (.refused e) (Or.inl rfl)
  | waits signal =>
      refine Or.inl ?_
      rw [Store.step]
      split
      · exact .begins
      · exact .waits signal
  | hasLock =>
      rcases scan.confirm_cases last t s with ⟨found, hlast, hstep⟩ | hmoves
      · exact Or.inl (.finished hlast (Or.inl hstep))
      · exact Or.inr hmoves
  | finished hlast hstage =>
      refine Or.inl ?_
      rcases hstage with rfl | rfl
      · obtain ⟨hends, hadds⟩ := s.step_ofResult t (Except.bind _ scan.answer)
        rw [hends, hadds, List.append_nil]
        exact .finished hlast (Or.inr rfl)
      · exact (List.append_nil done).symm ▸ .finished hlast (Or.inr rfl)

/-- An operation that is not about to lock anything has ended after two steps, unless it moves on. -/
theorem Scan.Phase.ends_or_moves (h : scan.Phase last stage done) (hidle : stage.isLocking = false)
    (t : TxnId) (s s' : Store ρo ρn β) :
    (∃ result, (s'.step t (s.step t stage).1).1 = .ended result) ∨
      ∃ other, scan.Moves last other t s stage done := by
  cases h with
  | begins => cases hidle
  | waits => cases hidle
  | hasLock =>
      rcases scan.confirm_cases last t s with ⟨found, -, hstep⟩ | hmoves
      · rw [hstep]
        exact Or.inl ⟨_, (s'.step_ofResult t _).1⟩
      · exact Or.inr hmoves
  | finished _ hstage =>
      rcases hstage with rfl | rfl
      · rw [(s.step_ofResult t _).1]
        exact Or.inl ⟨_, rfl⟩
      · exact Or.inl ⟨_, rfl⟩

theorem Scan.Moves.standing {other : Option Name} {s : Store ρo ρn β} {t : TxnId}
    (h : scan.Moves (moved.getLastD first) other t s stage done)
    (hmoves : (first :: moved).IsChain (· ≠ ·)) :
    scan.Standing first (moved ++ [other]) (s.step t stage).1
      (scan.vainRounds first moved ++ done ++ PursuitEvent.ofStep t s stage) := by
  refine ⟨isChain_concat hmoves h.ne, [], ?_, ?_⟩
  · rw [h.begins, List.getLastD_concat]
    exact .begins
  · rw [h.locked, h.adds, vainRounds_concat, List.append_assoc, List.append_nil]
    rfl

theorem Scan.Standing.step (h : scan.Standing first moved stage events) (t : TxnId)
    (s : Store ρo ρn β) :
    ∃ moved', moved.length ≤ moved'.length ∧ scan.Standing first moved' (s.step t stage).1
      (events ++ PursuitEvent.ofStep t s stage) := by
  obtain ⟨done, hphase, rfl⟩ := h.form
  rcases hphase.step t s with hphase' | ⟨other, hother⟩
  · exact ⟨moved, Nat.le_refl _, h.moves, _, hphase', List.append_assoc _ _ _⟩
  · exact ⟨moved ++ [other], by simp, hother.standing h.moves⟩

/-! ### The whole course -/

namespace Store

variable (t : TxnId) (scan : Scan) (first : Option Name) (finds : Nat → Store ρo ρn β)

/-- **The record has the form at every moment.** -/
theorem standing_pursuit (k : Nat) :
    ∃ moved, scan.Standing first moved (pursuit t scan first finds k).1
      (pursuit t scan first finds k).2 := by
  induction k with
  | zero => exact ⟨[], List.isChain_singleton first, [], .begins, rfl⟩
  | succ k ih =>
      obtain ⟨moved, hstanding⟩ := ih
      obtain ⟨moved', -, hstanding'⟩ := hstanding.step t (finds k)
      exact ⟨moved', hstanding'⟩

variable {t scan first finds}

/-- Candidates that have been moved on to remain counted. -/
theorem standing_later {k j : Nat} {moved : List (Option Name)} (hle : k ≤ j)
    (h : scan.Standing first moved (pursuit t scan first finds k).1 (pursuit t scan first finds k).2) :
    ∃ moved', moved.length ≤ moved'.length ∧ scan.Standing first moved'
      (pursuit t scan first finds j).1 (pursuit t scan first finds j).2 := by
  induction j, hle using Nat.le_induction with
  | base => exact ⟨moved, Nat.le_refl _, h⟩
  | succ j _ ih =>
      obtain ⟨moved', hlength, hstanding⟩ := ih
      obtain ⟨moved'', hlength', hstanding'⟩ := hstanding.step t (finds j)
      exact ⟨moved'', Nat.le_trans hlength hlength', hstanding'⟩

/-- **A pursuit whose lock calls all return ends, or moves on for ever.** -/
theorem ends_or_moves_on
    (hreturns : ∀ k, ∃ j, k ≤ j ∧ (pursuit t scan first finds j).1.isLocking = false) (n : Nat) :
    (∃ k result, (pursuit t scan first finds k).1 = .ended result) ∨
      ∃ k moved, n ≤ moved.length ∧ scan.Standing first moved (pursuit t scan first finds k).1
        (pursuit t scan first finds k).2 := by
  induction n with
  | zero =>
      obtain ⟨moved, hstanding⟩ := standing_pursuit t scan first finds 0
      exact Or.inr ⟨0, moved, Nat.zero_le _, hstanding⟩
  | succ n ih =>
      rcases ih with hends | ⟨k, moved, hn, hstanding⟩
      · exact Or.inl hends
      · -- The lock call under way, if there is one, has returned at step `j`.
        obtain ⟨j, hle, hidle⟩ := hreturns k
        obtain ⟨moved', hlength, hstanding'⟩ := standing_later hle hstanding
        obtain ⟨done, hphase, hevents⟩ := hstanding'.form
        rcases hphase.ends_or_moves hidle t (finds j) (finds (j + 1)) with
          ⟨result, hended⟩ | ⟨other, hother⟩
        · exact Or.inl ⟨j + 2, result, hended⟩
        · refine Or.inr ⟨j + 1, moved' ++ [other], ?_, ?_⟩
          · rw [List.length_append, List.length_singleton]
            omega
          · have hnext := hother.standing hstanding'.moves
            rw [← hevents] at hnext
            exact hnext

end Store

end Course

/-! ### What is read off the form -/

namespace Pursuit

variable {first : Option Name} {moved : List (Option Name)}

theorem lockCalls_append (events events' : List PursuitEvent) :
    lockCalls (events ++ events') = lockCalls events ++ lockCalls events' :=
  List.filterMap_append

theorem answers_append (events events' : List PursuitEvent) :
    answers (events ++ events') = answers events ++ answers events' :=
  List.filterMap_append

theorem errors_append (events events' : List PursuitEvent) :
    errors (events ++ events') = errors events ++ errors events' :=
  List.filterMap_append

theorem changes_of_isChain (h : (first :: moved).IsChain (· ≠ ·)) :
    changes first moved = moved.length := by
  induction moved generalizing first with
  | nil => rfl
  | cons a rest ih =>
      obtain ⟨hne, hrest⟩ := List.isChain_cons_cons.mp h
      rw [changes, if_neg hne.symm, ih hrest, List.length_cons, Nat.add_comm]

theorem changes_concat_last (first : Option Name) (moved : List (Option Name)) :
    changes first (moved ++ [moved.getLastD first]) = changes first moved := by
  induction moved generalizing first with
  | nil => simp [changes]
  | cons a rest ih => rw [List.getLastD_cons, List.cons_append, changes, changes, ih a]

end Pursuit

open Pursuit

namespace Scan

variable {scan : Scan} {first last : Option Name} {moved : List (Option Name)} {stage : Stage}
variable {events done : List PursuitEvent} {found : Except StoreError (Option Name)}

/-- All candidates but the last one have been locked in vain. -/
theorem lockCalls_vainRounds (scan : Scan) (first : Option Name) (moved : List (Option Name)) :
    lockCalls (scan.vainRounds first moved) ++ [scan.access (moved.getLastD first)] =
      (first :: moved).map scan.access := by
  induction moved generalizing first with
  | nil => rfl
  | cons a rest ih =>
      rw [List.getLastD_cons, List.map_cons, ← ih a]
      rfl

theorem answers_vainRounds (first : Option Name) (moved : List (Option Name)) :
    answers (scan.vainRounds first moved) = moved := by
  induction moved generalizing first with
  | nil => rfl
  | cons a rest ih => exact congrArg (a :: ·) (ih a)

theorem errors_vainRounds (first : Option Name) (moved : List (Option Name)) :
    errors (scan.vainRounds first moved) = [] := by
  induction moved generalizing first with
  | nil => rfl
  | cons a rest ih => exact ih a

/-- What has been answered in the last round repeats the last candidate. -/
theorem Phase.answers_cases (h : scan.Phase last stage done) :
    answers done = [] ∨ answers done = [last] := by
  cases h with
  | begins => exact Or.inl rfl
  | waits => exact Or.inl rfl
  | hasLock => exact Or.inl rfl
  | finished hlast _ =>
      cases hlast with
      | settled => exact Or.inr rfl
      | refused => exact Or.inl rfl
      | unanswered => exact Or.inl rfl

/-- No candidate is locked twice in a round. -/
theorem Phase.lockCalls_length_le (h : scan.Phase last stage done) :
    (lockCalls done).length ≤ 1 := by
  cases h with
  | begins => exact Nat.zero_le 1
  | waits => exact Nat.zero_le 1
  | hasLock => exact Nat.le_refl 1
  | finished hlast _ => cases hlast <;> exact Nat.le_refl 1

theorem Standing.changes_eq (h : scan.Standing first moved stage events) :
    changes first (answers events) = moved.length := by
  obtain ⟨done, hphase, rfl⟩ := h.form
  rw [answers_append, answers_vainRounds]
  rcases hphase.answers_cases with hnone | hlast
  · rw [hnone, List.append_nil, changes_of_isChain h.moves]
  · rw [hlast, changes_concat_last, changes_of_isChain h.moves]

/-- There is at most one lock call for each candidate. -/
theorem Standing.lockCalls_length_le (h : scan.Standing first moved stage events) :
    (lockCalls events).length ≤ moved.length + 1 := by
  obtain ⟨done, hphase, rfl⟩ := h.form
  have hvain := congrArg List.length (scan.lockCalls_vainRounds first moved)
  have hdone := hphase.lockCalls_length_le
  rw [List.length_append, List.length_singleton, List.length_map, List.length_cons] at hvain
  rw [lockCalls_append, List.length_append]
  omega

/-- What a record says of a pursuit that has come to an end, with a name or with a failure. -/
structure Account (scan : Scan) (first : Option Name) (moved : List (Option Name))
    (events : List PursuitEvent) (found : Except StoreError (Option Name)) : Prop where
  moves : (first :: moved).IsChain (· ≠ ·)
  /-- The name that was found is the last that was locked, and the answer after the lock repeated it.
  A failure is the last thing in the record. -/
  form : ∃ done, scan.LastRound (moved.getLastD first) done found ∧
    events = scan.vainRounds first moved ++ done
  /-- Nothing was locked but the candidates, in their order. -/
  locks : lockCalls events = (first :: moved).map scan.access
  /-- The candidates are all the answers up to the first that repeats the one before. -/
  answered : first :: answers events = first :: moved ++ found.toOption.toList
  failed : ∀ e, e ∈ errors events ↔ found = .error e
  count : (lockCalls events).length = changes first (answers events) + 1

/-- **All that is said follows from the form.** -/
theorem Account.of_form (hmoves : (first :: moved).IsChain (· ≠ ·))
    (hlast : scan.LastRound (moved.getLastD first) done found) :
    scan.Account first moved (scan.vainRounds first moved ++ done) found := by
  have hlocks : lockCalls (scan.vainRounds first moved ++ done) =
      (first :: moved).map scan.access := by
    rw [lockCalls_append, ← scan.lockCalls_vainRounds first moved]
    cases hlast <;> rfl
  have hanswers : answers (scan.vainRounds first moved ++ done) = moved ++ found.toOption.toList := by
    rw [answers_append, answers_vainRounds]
    cases hlast <;> rfl
  have hstanding : scan.Standing first moved (.ended (found.bind scan.answer))
      (scan.vainRounds first moved ++ done) := ⟨hmoves, done, .finished hlast (Or.inr rfl), rfl⟩
  refine ⟨hmoves, ⟨done, hlast, rfl⟩, hlocks, congrArg (first :: ·) hanswers, fun e => ?_, ?_⟩
  · rw [errors_append, errors_vainRounds]
    cases hlast <;> simp [errors, PursuitEvent.error?, eq_comm]
  · rw [hlocks, hstanding.changes_eq, List.length_map, List.length_cons]

theorem Standing.account {result : Except StoreError Reply}
    (h : scan.Standing first moved (.ended result) events) :
    ∃ found, result = found.bind scan.answer ∧ scan.Account first moved events found := by
  obtain ⟨done, hphase, rfl⟩ := h.form
  cases hphase with
  | @finished _ found _ hlast hstage =>
      refine ⟨found, ?_, .of_form h.moves hlast⟩
      rcases hstage with hstage | hstage
      · cases hresult : found.bind scan.answer with
        | ok reply =>
            rw [hresult] at hstage
            exact Stage.ended.inj hstage
        | error e =>
            rw [hresult] at hstage
            cases hstage
      · exact Stage.ended.inj hstage

end Scan

section Course

variable {ρo ρn β : Type} [Reporter ρo ObjectId] [Reporter ρn NameKey] [Backend β]

/--
**The pursuit of the next name.**  The reporter and the backend may do anything, each time anew, and
anything may happen to the store between two steps.  At every moment the record has the form.  When the
operation has ended, `Scan.Account` says what it has locked and been answered, and its answer goes by
what it found.  And it does end, if its lock calls return and the answers change at most `n` times, with
at most `n + 1` lock calls.
-/
theorem Store.pursuit_settles (t : TxnId) (scan : Scan) (first : Option Name)
    (finds : Nat → Store ρo ρn β) :
    (∀ k, ∃ moved, scan.Standing first moved (pursuit t scan first finds k).1
        (pursuit t scan first finds k).2) ∧
      (∀ k result, (pursuit t scan first finds k).1 = .ended result →
        ∃ moved found, result = found.bind scan.answer ∧
          scan.Account first moved (pursuit t scan first finds k).2 found) ∧
      ∀ n, (∀ k, changes first (answers (pursuit t scan first finds k).2) ≤ n) →
        (∀ k, ∃ j, k ≤ j ∧ (pursuit t scan first finds j).1.isLocking = false) →
        (∃ k result, (pursuit t scan first finds k).1 = .ended result) ∧
          ∀ k, (lockCalls (pursuit t scan first finds k).2).length ≤ n + 1 := by
  have hstanding := standing_pursuit t scan first finds
  refine ⟨hstanding, fun k result hended => ?_, fun n hchanges hreturns => ⟨?_, fun k => ?_⟩⟩
  · obtain ⟨moved, hmoved⟩ := hstanding k
    rw [hended] at hmoved
    obtain ⟨found, hresult, haccount⟩ := hmoved.account
    exact ⟨moved, found, hresult, haccount⟩
  · rcases ends_or_moves_on hreturns (n + 1) with hends | ⟨k, moved, hlong, hmoved⟩
    · exact hends
    · have hfew := hchanges k
      rw [hmoved.changes_eq] at hfew
      omega
  · obtain ⟨moved, hmoved⟩ := hstanding k
    have hfew := hchanges k
    rw [hmoved.changes_eq] at hfew
    exact Nat.le_trans hmoved.lockCalls_length_le (Nat.succ_le_succ hfew)

theorem Store.pursuit_of_ended {t : TxnId} {scan : Scan} {first : Option Name}
    {finds : Nat → Store ρo ρn β} {k : Nat} {result : Except StoreError Reply}
    {events : List PursuitEvent} (h : pursuit t scan first finds k = (.ended result, events)) (j : Nat) :
    pursuit t scan first finds (k + j) = (.ended result, events) := by
  induction j with
  | zero => exact h
  | succ j ih =>
      rw [← Nat.add_assoc, pursuit, ih]
      exact congrArg (Prod.mk _) (List.append_nil events)

end Course

/-! ### A next name that moves -/

/-- A store that lets every access pass, and whose backend has an answer for the next question. -/
def Store.telling (answer : Option Name) :
    Store (OpenReporter ObjectId) (OpenReporter NameKey) ScriptedMemory :=
  .new {} {} (ScriptedMemory.empty.answerNext [answer])

/-- The stores that an operation finds while another one binds `k`, and a third unbinds all names. -/
def movingNames (step : Nat) : Store (OpenReporter ObjectId) (OpenReporter NameKey) ScriptedMemory :=
  .telling (if step = 1 then some ⟨"k"⟩ else none)

/-- The pursuit of the name after `a`, where the first candidate is `m`. -/
def movingPursuit : Nat → Stage × List PursuitEvent :=
  Store.pursuit ⟨1⟩ (.next (some ⟨"a"⟩)) (some ⟨"m"⟩) movingNames

theorem movingPursuit_end (j : Nat) :
    movingPursuit (6 + j) = (.ended (.ok (.nextName none)),
      [.locked (.name ⟨"m"⟩ .read) (.ok ()), .asked (.ok (some ⟨"k"⟩)),
        .locked (.name ⟨"k"⟩ .read) (.ok ()), .asked (.ok none),
        .locked (.name ⟨"z.end"⟩ .read) (.ok ()), .asked (.ok none)]) :=
  Store.pursuit_of_ended rfl j

theorem changes_movingPursuit_le (k : Nat) :
    changes (some ⟨"m"⟩) (answers (movingPursuit k).2) ≤ 2 := by
  by_cases hk : k < 6
  · have hfirst : ∀ k < 6, changes (some ⟨"m"⟩) (answers (movingPursuit k).2) ≤ 2 := by decide
    exact hfirst k hk
  · obtain ⟨j, rfl⟩ := Nat.exists_eq_add_of_le (Nat.le_of_not_lt hk)
    rw [movingPursuit_end]
    decide

theorem pursuit_settles_movingNames :
    ((∀ k, changes (some ⟨"m"⟩) (answers (movingPursuit k).2) ≤ 2) ∧
      (∀ k, ∃ j, k ≤ j ∧ (movingPursuit j).1.isLocking = false) ∧
      (movingPursuit 6).1 = .ended (.ok (.nextName none))) ∧
      ((∃ k result, (movingPursuit k).1 = .ended result) ∧
        ∀ k, (lockCalls (movingPursuit k).2).length ≤ 3) ∧
      ∃ moved found, .ok (.nextName none) = found.bind (Scan.next (some ⟨"a"⟩)).answer ∧
        (Scan.next (some ⟨"a"⟩)).Account (some ⟨"m"⟩) moved (movingPursuit 6).2 found := by
  have hreturns : ∀ k, ∃ j, k ≤ j ∧ (movingPursuit j).1.isLocking = false := fun k =>
    ⟨6 + k, Nat.le_add_left k 6, by rw [movingPursuit_end]; rfl⟩
  have hended : (movingPursuit 6).1 = .ended (.ok (.nextName none)) := rfl
  obtain ⟨-, haccount, hends⟩ :=
    Store.pursuit_settles ⟨1⟩ (.next (some ⟨"a"⟩)) (some ⟨"m"⟩) movingNames
  exact ⟨⟨changes_movingPursuit_le, hreturns, hended⟩, hends 2 changes_movingPursuit_le hreturns,
    haccount 6 _ hended⟩

end ObjectStore
