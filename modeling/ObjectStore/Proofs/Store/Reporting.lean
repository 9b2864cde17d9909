/-
What a store may expect of its reporters.

A reporter decides over accesses.  All it does to the statuses of transactions is to abort some that
are active.  What it keeps of a transaction, such as its locks, comes from accesses that the
transaction itself has reported, and is given up when the reporter hears that the transaction has ended.

`ReporterLaws` says so of any kind of reporter; what it means to keep nothing of a transaction is part
of the laws.  The reporters of this library keep them: the one that takes locks keeps entries in its
table, the others keep nothing.
-/
import ObjectStore.Access.Recording
import ObjectStore.Proofs.Store.Leaving

namespace ObjectStore

/-- What a store relies on in reporters of type `ρ`. -/
structure ReporterLaws (ρ : Type) {K : Type} [Reporter ρ K] where
  /-- The reporter is in order. -/
  IsSound : ρ → Prop
  /-- The reporter keeps nothing of a transaction. -/
  Lacks : ρ → TxnId → Prop
  report : ∀ {now : Nat} {t : TxnId} {key : K} {mode : LockMode} {register register' : Register}
    {turn : AccessTurn} {r r' : ρ}, IsSound r →
    Reporter.report now t key mode register r = (turn, register', r') →
      IsSound r' ∧ register.Wounded register' ∧ ∀ u, t ≠ u → Lacks r u → Lacks r' u
  describe : ∀ (t : TxnId) (key : K) (text : String) {r : ρ}, IsSound r →
    IsSound (Reporter.describe t key text r) ∧
      ∀ u, Lacks r u → Lacks (Reporter.describe t key text r) u
  finish : ∀ (t : TxnId) {r : ρ}, IsSound r →
    IsSound (Reporter.finish t r) ∧ Lacks (Reporter.finish t r) t ∧
      ∀ u, Lacks r u → Lacks (Reporter.finish t r) u

namespace ReporterLaws

variable {K : Type}

/-- The reporter that takes locks: a transaction of which it keeps nothing has no entry, be it granted
or queued. -/
def locking [DecidableEq K] [Hashable K] [Labelled K] : ReporterLaws (LockingReporter K) where
  IsSound r := r.table.Distinct
  Lacks r t := r.table.Lacks t
  report := by
    intro now t key mode register register' turn r r' hd hreport
    have hturn : ∃ answer, r.table.turn now (register.find t).deadline t key mode register =
        (answer, register', r'.table) := by
      simp only [Reporter.report, LockingReporter.report] at hreport
      split at hreport <;> cases hreport <;> exact ⟨_, rfl⟩
    obtain ⟨answer, hturn⟩ := hturn
    exact ⟨hd.turn hturn, Register.wounded_turn hturn, fun u hu hlacks => hlacks.turn hu hd hturn⟩
  describe := fun t key text r hd => ⟨hd, fun _ hlacks => hlacks⟩
  finish := fun t r hd =>
    ⟨hd.releaseAll, .releaseAll_self hd t, fun _ hlacks => hlacks.releaseAll t⟩

/-- The reporter that lets everything pass. -/
def passing : ReporterLaws (OpenReporter K) where
  IsSound _ := True
  Lacks _ _ := True
  report := by
    intro now t key mode register register' turn r r' _ hreport
    cases hreport
    exact ⟨trivial, .refl _, fun _ _ => id⟩
  describe := fun _ _ _ _ _ => ⟨trivial, fun _ => id⟩
  finish := fun _ _ _ => ⟨trivial, trivial, fun _ => id⟩

/-- The reporter that keeps a log. -/
def recording [DecidableEq K] : ReporterLaws (RecordingReporter K) where
  IsSound _ := True
  Lacks _ _ := True
  report := by
    intro now t key mode register register' turn r r' _ hreport
    cases hreport
    exact ⟨trivial, .refl _, fun _ _ => id⟩
  describe := fun _ _ _ _ _ => ⟨trivial, fun _ => id⟩
  finish := fun _ _ _ => ⟨trivial, trivial, fun _ => id⟩

end ReporterLaws

end ObjectStore
