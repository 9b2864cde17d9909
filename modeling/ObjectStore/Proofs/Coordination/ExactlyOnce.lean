/-
A run takes effect once at most, and says whether it did.

`Run.InHand` is what a run keeps to from its first step to its end.  Every attempt but the current one
has failed with an error that leaves hope, and nothing is left of its transaction; the numbers of the
attempts increase; attempts made and retries left add up.  How the current attempt stands is `Stands`,
by the stage of the run.  One step keeps all this, and so do many steps among others, as long as the
others act for no transaction of the run.  Which transactions these are is known only when the run is
over, so they are a predicate, `mine`, of which the steps learn that it holds of what has been begun.

That a run comes to its end is no matter of the store: there are only so many steps that are not the
task's own (`Run.ends_among`).
-/
import ObjectStore.Proofs.Coordination.Next
import ObjectStore.Proofs.Coordination.Turns
import ObjectStore.Proofs.InOrder

namespace ObjectStore

variable {V κ ρo ρn : Type}

namespace Traffic

variable {w w' : Traffic ρo ρn Memory} {task : Task V} {before : List TaskHistory}
variable {a : TxnId × TaskHistory} {e : StoreError}

/-- An attempt has failed with an error, after earlier ones. -/
inductive FailedWith (w : Traffic ρo ρn Memory) (task : Task V) (before : List TaskHistory)
    (a : TxnId × TaskHistory) : StoreError → Prop
  /-- The task came to the error. -/
  | task {fault : Fault} (h : task before a.2 = .stop (.error fault)) :
    FailedWith w task before a (fault a.1)
  /-- The task came to a value, and the commit came to the error. -/
  | commit {value : V} {e : StoreError} (h : task before a.2 = .stop (.ok value))
    (hseen : .participated a.1 .prepareAndCommit (.error e) ∈ w.log) : FailedWith w task before a e

theorem FailedWith.mono (h : w.FailedWith task before a e) (hlog : w.log <+: w'.log) :
    w'.FailedWith task before a e := by
  cases h with
  | task h => exact .task h
  | commit h hseen => exact .commit h (hlog.subset hseen)

/-- An attempt has failed with an error that leaves hope. -/
def Retried (w : Traffic ρo ρn Memory) (task : Task V) (before : List (TxnId × TaskHistory))
    (a : TxnId × TaskHistory) : Prop :=
  ∃ e : StoreError, e.shouldRetry = true ∧ w.FailedWith task (before.map (·.2)) a e

theorem Retried.mono {before : List (TxnId × TaskHistory)} (h : w.Retried task before a)
    (hlog : w.log <+: w'.log) : w'.Retried task before a := by
  obtain ⟨e, hretry, hfailed⟩ := h
  exact ⟨e, hretry, hfailed.mono hlog⟩

end Traffic

namespace Run

variable [Reporter ρo ObjectId] [Reporter ρn NameKey]
variable {lo : ReporterLaws ρo} {ln : ReporterLaws ρn} {mine : TxnId → Prop}
variable {task : Task V} {σ : Seniority} {retries : Nat}
variable {r r' : Run V} {c c' : Coordinator κ} {s s' : Contended ρo ρn} {t : TxnId}

/-- How the current attempt of a run stands. -/
inductive Stands (lo : ReporterLaws ρo) (ln : ReporterLaws ρn) (r : Run V)
    (w : Traffic ρo ρn Memory) : RunStage V → Prop
  | beginning : Stands lo ln r w .beginning
  | working {stage : RunStage V} (hworking : stage.IsWorking)
    (h : w.IsPending r.txn r.seniority) : Stands lo ln r w stage
  | committing {value : V} (hmove : r.move = .stop (.ok value))
    (h : w.IsPending r.txn r.seniority) : Stands lo ln r w (.committing value)
  | failing {e : StoreError}
    (hfailed : w.FailedWith r.task (r.earlier.map (·.2)) (r.txn, r.history) e)
    (h : w.IsPending r.txn r.seniority) : Stands lo ln r w (.failing e)
  | committed {value : V} (hmove : r.move = .stop (.ok value))
    (h : w.IsCommitted r.txn r.seniority) : Stands lo ln r w (.ended (.ok value))
  | failed {e : StoreError}
    (hfailed : w.FailedWith r.task (r.earlier.map (·.2)) (r.txn, r.history) e)
    (hspent : e.shouldRetry = true → r.retriesLeft = 0)
    (h : w.IsGone lo ln r.txn r.seniority) : Stands lo ln r w (.ended (.error e))

/-- A run of a task that may be retried so many times. -/
structure InHand (lo : ReporterLaws ρo) (ln : ReporterLaws ρn) (mine : TxnId → Prop) (task : Task V)
    (σ : Seniority) (retries : Nat) (r : Run V) (c : Coordinator κ) (s : Contended ρo ρn) : Prop where
  ready : s.Ready lo ln mine
  task_eq : r.task = task
  seniority_eq : r.seniority = σ
  budget : r.earlier.length + r.retriesLeft = retries
  increasing : (r.begun.map (·.val)).Pairwise (· < ·)
  drawn : ∀ t ∈ r.begun, t.val < c.nextTxn.val
  fresh : ∀ t, mine t → c.nextTxn.val ≤ t.val → .committed t ∉ s.traffic.log
  gone : ∀ a ∈ r.earlier, s.traffic.IsGone lo ln a.1 σ
  retried : InOrder (s.traffic.Retried task) r.earlier
  stands : r.Stands lo ln s.traffic r.stage

namespace InHand

theorem lt_txn (h : r.InHand lo ln mine task σ retries c s) (hne : r.stage ≠ .beginning) :
    ∀ a ∈ r.earlier, a.1.val < r.txn.val := by
  intro a ha
  have hincreasing := h.increasing
  rw [begun_of_ne hne, List.map_append, List.pairwise_append] at hincreasing
  exact hincreasing.2.2 a.1.val (List.mem_map_of_mem (List.mem_map_of_mem ha)) r.txn.val (by simp)

theorem alone (h : r.InHand lo ln mine task σ retries c s) (hon : s.Onward lo ln mine t s')
    (hmine : ∀ a ∈ r.earlier, mine a.1) (hlt : ∀ a ∈ r.earlier, a.1.val < t.val) :
    (∀ a ∈ r.earlier, s'.traffic.IsGone lo ln a.1 σ) ∧
      InOrder (s'.traffic.Retried task) r.earlier := by
  refine ⟨fun a ha => (h.gone a ha).alone (hon.alone a.1 (hmine a ha) ?_), ?_⟩
  · rintro rfl
    exact Nat.lt_irrefl _ (hlt a ha)
  · exact h.retried.mono fun before a hretried => hretried.mono hon.log

theorem fresh_onward (h : r.InHand lo ln mine task σ retries c s) (hne : r.stage ≠ .beginning)
    (hon : s.Onward lo ln mine r.txn s') :
    ∀ t, mine t → c.nextTxn.val ≤ t.val → .committed t ∉ s'.traffic.log := by
  intro t ht hle
  have hlt : r.txn.val < c.nextTxn.val := h.drawn r.txn (by simp [begun_of_ne hne])
  have hother : r.txn ≠ t := by
    rintro rfl
    omega
  rw [(hon.alone t ht hother).committed_iff]
  exact h.fresh t ht hle

theorem mine_earlier (hne : r.stage ≠ .beginning) (hmine : ∀ t ∈ r.begun, mine t) :
    ∀ a ∈ r.earlier, mine a.1 := by
  intro a ha
  apply hmine
  rw [begun_of_ne hne]
  exact List.mem_append_left _ (List.mem_map_of_mem ha)

theorem mine_txn (hne : r.stage ≠ .beginning) (hmine : ∀ t ∈ r.begun, mine t) : mine r.txn :=
  hmine r.txn (by simp [begun_of_ne hne])

/-- The attempt goes on. -/
theorem goOn (h : r.InHand lo ln mine task σ retries c s) (hne : r.stage ≠ .beginning)
    (hmine : ∀ t ∈ r.begun, mine t) (hon : s.Onward lo ln mine r.txn s')
    {history : TaskHistory} {stage : RunStage V} (hstage : stage ≠ .beginning)
    (hstands : ({ r with history, stage } : Run V).Stands lo ln s'.traffic stage) :
    ({ r with history, stage } : Run V).InHand lo ln mine task σ retries c s' := by
  have hbegun : ({ r with history, stage } : Run V).begun = r.begun := begun_goOn hne hstage
  obtain ⟨hgone, hretried⟩ := h.alone hon (mine_earlier hne hmine) (h.lt_txn hne)
  refine ⟨hon.ready, h.task_eq, h.seniority_eq, h.budget, ?_, ?_, h.fresh_onward hne hon, hgone,
    hretried, hstands⟩
  · rw [hbegun]
    exact h.increasing
  · rw [hbegun]
    exact h.drawn

/-- An attempt begins, in a transaction with the next number. -/
theorem begins (h : r.InHand lo ln mine task σ retries c s) (hstage : r.stage = .beginning)
    (hmine : ∀ t ∈ r.begun, mine t) (hnext : mine c.nextTxn) :
    ({ r with txn := c.nextTxn, history := [], stage := .moving } : Run V).InHand lo ln mine task σ
      retries { c with nextTxn := ⟨c.nextTxn.val + 1⟩ }
      (TaskHost.begin c.nextTxn r.seniority r.lifetime s) := by
  have hbegun : ({ r with txn := c.nextTxn, history := [], stage := .moving } : Run V).begun =
      r.begun ++ [c.nextTxn] := by
    rw [begun_of_ne (by simp), begun_beginning hstage]
  have hearlier : ∀ a ∈ r.earlier, a.1 ∈ r.begun := by
    intro a ha
    rw [begun_beginning hstage]
    exact List.mem_map_of_mem ha
  obtain ⟨hon, hpending⟩ := h.ready.begin hnext
    (h.fresh c.nextTxn hnext (Nat.le_refl _)) r.seniority r.lifetime
  obtain ⟨hgone, hretried⟩ := h.alone hon (fun a ha => hmine a.1 (hearlier a ha))
    fun a ha => h.drawn a.1 (hearlier a ha)
  refine ⟨hon.ready, h.task_eq, h.seniority_eq, h.budget, ?_, ?_, ?_, hgone, hretried,
    .working .moving hpending⟩
  · rw [hbegun, List.map_append, List.pairwise_append]
    refine ⟨h.increasing, by simp, ?_⟩
    intro n hn m hm
    obtain ⟨t, ht, rfl⟩ := List.mem_map.mp hn
    obtain rfl : m = c.nextTxn.val := by simpa using hm
    exact h.drawn t ht
  · intro t ht
    rw [hbegun, List.mem_append, List.mem_singleton] at ht
    show t.val < c.nextTxn.val + 1
    rcases ht with ht | rfl
    · have hlt := h.drawn t ht
      omega
    · omega
  · intro t ht hle
    have hlt : c.nextTxn.val < t.val := hle
    have hother : c.nextTxn ≠ t := by
      rintro rfl
      omega
    rw [(hon.alone t ht hother).committed_iff]
    exact h.fresh t ht (Nat.le_of_lt hlt)

theorem pending (h : r.InHand lo ln mine task σ retries c s) {stage : RunStage V}
    (hstage : r.stage = stage) (hworking : stage.IsWorking) :
    s.traffic.IsPending r.txn r.seniority := by
  have hstands := h.stands
  rw [hstage] at hstands
  cases hworking with
  | moving => cases hstands with | working _ hpending => exact hpending
  | operating => cases hstands with | working _ hpending => exact hpending

theorem commits (h : r.InHand lo ln mine task σ retries c s) {value : V}
    (hstage : r.stage = .committing value) (hmine : ∀ t ∈ r.begun, mine t) :
    s.Onward lo ln mine r.txn (TaskHost.participate r.txn .prepareAndCommit s).2 ∧
      r.move = .stop (.ok value) ∧
      (TaskHost.participate r.txn .prepareAndCommit s).2.traffic.Committing r.txn r.seniority
        (.ended (TaskHost.participate r.txn .prepareAndCommit s).1) := by
  have hstands := h.stands
  rw [hstage] at hstands
  cases hstands with
  | working hworking => cases hworking
  | committing hmove hpending =>
      obtain ⟨hon, hcommitting⟩ := h.ready.commit (mine_txn (by simp [hstage]) hmine) hpending
      exact ⟨hon, hmove, hcommitting⟩

/-- An attempt that has failed is cleaned up. -/
theorem cleansUp (h : r.InHand lo ln mine task σ retries c s) {e : StoreError}
    (hstage : r.stage = .failing e) (hmine : ∀ t ∈ r.begun, mine t) :
    s.Onward lo ln mine r.txn (cleanUp e r.txn s) ∧
      (cleanUp e r.txn s).traffic.IsGone lo ln r.txn r.seniority ∧
      (cleanUp e r.txn s).traffic.FailedWith r.task (r.earlier.map (·.2)) (r.txn, r.history) e := by
  have hstands := h.stands
  rw [hstage] at hstands
  cases hstands with
  | working hworking => cases hworking
  | failing hfailed hpending =>
      obtain ⟨hon, hgone⟩ := h.ready.cleanUp (mine_txn (by simp [hstage]) hmine) hpending e
      exact ⟨hon, hgone, hfailed.mono hon.log⟩

/-- A failed attempt becomes the last of the earlier ones. -/
theorem triesAgain (h : r.InHand lo ln mine task σ retries c s) {e : StoreError} {n : Nat}
    (hstage : r.stage = .failing e) (hmine : ∀ t ∈ r.begun, mine t) (hretry : e.shouldRetry = true)
    (hleft : r.retriesLeft = n + 1) :
    ({ r with retriesLeft := n, earlier := r.attempts, stage := .beginning } : Run V).InHand lo ln
      mine task σ retries c (cleanUp e r.txn s) := by
  have hne : r.stage ≠ .beginning := by simp [hstage]
  have hbegun :
      ({ r with retriesLeft := n, earlier := r.attempts, stage := .beginning } : Run V).begun =
        r.begun := by
    rw [begun_beginning rfl, begun_of_ne hne]
    simp [attempts]
  obtain ⟨hon, hlast, hfailed⟩ := h.cleansUp hstage hmine
  obtain ⟨hgone, hretried⟩ := h.alone hon (mine_earlier hne hmine) (h.lt_txn hne)
  refine ⟨hon.ready, h.task_eq, h.seniority_eq, ?_, ?_, ?_, h.fresh_onward hne hon, ?_, ?_,
    .beginning⟩
  · have hbudget := h.budget
    simp only [attempts, List.length_append, List.length_singleton]
    omega
  · rw [hbegun]
    exact h.increasing
  · rw [hbegun]
    exact h.drawn
  · intro a ha
    rcases List.mem_append.mp ha with hearlier | hcurrent
    · exact hgone a hearlier
    · obtain rfl : a = (r.txn, r.history) := by simpa using hcurrent
      rw [← h.seniority_eq]
      exact hlast
  · refine .concat hretried ⟨e, hretry, ?_⟩
    rw [← h.task_eq]
    exact hfailed

/-- **A step keeps a run in hand**, whatever the others do before it. -/
theorem next (h : r.InHand lo ln mine task σ retries c s) (hnext : Next c s r r' c' s')
    (hdata : ∀ earlier history call, task earlier history ≠ .act (.participate call))
    (hbegun : ∀ t ∈ r.begun, mine t) (hmine : ∀ t ∈ r'.begun, mine t) :
    r'.InHand lo ln mine task σ retries c' s' := by
  cases hnext with
  | begins hstage =>
      refine h.begins hstage hbegun (hmine c.nextTxn ?_)
      rw [begun_of_ne (by simp)]
      simp
  | @acts action history stage hstage hmove hworking =>
      have hne : r.stage ≠ .beginning := by simp [hstage]
      have hcall : ∀ call, action ≠ .participate call := by
        rintro call rfl
        rw [move, h.task_eq] at hmove
        exact hdata _ _ call hmove
      obtain ⟨hon, hfades⟩ := h.ready.act (mine_txn hne hbegun) hcall
      exact h.goOn hne hbegun hon hworking.ne_beginning
        (.working hworking ((h.pending hstage .moving).fades hfades))
  | stops hstage hmove =>
      exact h.goOn (by simp [hstage]) hbegun (h.ready.onward _) (by simp)
        (.committing hmove (h.pending hstage .moving))
  | gives hstage hmove =>
      exact h.goOn (by simp [hstage]) hbegun (h.ready.onward _) (by simp)
        (.failing (.task hmove) (h.pending hstage .moving))
  | @proceeds stage history stage' hstage hworking =>
      have hne : r.stage ≠ .beginning := by simp [hstage]
      obtain ⟨hon, hfades⟩ := h.ready.step (mine_txn hne hbegun) stage
      exact h.goOn hne hbegun hon hworking.ne_beginning
        (.working hworking ((h.pending hstage (.operating stage)).fades hfades))
  | commits hstage hanswer =>
      obtain ⟨hon, hmove, hcommitting⟩ := h.commits hstage hbegun
      rw [hanswer] at hcommitting
      cases hcommitting with
      | succeeded hcommitted =>
          exact h.goOn (by simp [hstage]) hbegun hon (by simp) (.committed hmove hcommitted)
  | loses hstage hanswer =>
      obtain ⟨hon, hmove, hcommitting⟩ := h.commits hstage hbegun
      rw [hanswer] at hcommitting
      cases hcommitting with
      | failed hpending hseen =>
          exact h.goOn (by simp [hstage]) hbegun hon (by simp)
            (.failing (.commit hmove hseen) hpending)
  | retries hstage hretry hleft => exact h.triesAgain hstage hbegun hretry hleft
  | givesUp hstage hlast =>
      obtain ⟨hon, hgone, hfailed⟩ := h.cleansUp hstage hbegun
      exact h.goOn (by simp [hstage]) hbegun hon (by simp) (.failed hfailed hlast hgone)
  | rests hstage => exact h

theorem step (h : r.InHand lo ln mine task σ retries c s)
    (hdata : ∀ earlier history call, task earlier history ≠ .act (.participate call))
    (hmine : ∀ t ∈ (r.step c s).1.begun, mine t) :
    (r.step c s).1.InHand lo ln mine task σ retries (r.step c s).2.1 (r.step c s).2.2 :=
  h.next (r.next_step c s) hdata (fun t ht => hmine t ((r.begun_step c s).subset ht)) hmine

/-- Others may draw numbers at any time. -/
theorem skip (h : r.InHand lo ln mine task σ retries c s) (n : Nat) :
    r.InHand lo ln mine task σ retries (c.skip n) s := by
  refine ⟨h.ready, h.task_eq, h.seniority_eq, h.budget, h.increasing, ?_, ?_, h.gone, h.retried,
    h.stands⟩
  · intro t ht
    have hlt := h.drawn t ht
    show t.val < c.nextTxn.val + n
    omega
  · intro t ht hle
    have hlater : c.nextTxn.val + n ≤ t.val := hle
    exact h.fresh t ht (by omega)

theorem among (draws : List Nat) (h : r.InHand lo ln mine task σ retries c s)
    (hdata : ∀ earlier history call, task earlier history ≠ .act (.participate call))
    (hmine : ∀ t ∈ (r.among draws c s).1.begun, mine t) :
    (r.among draws c s).1.InHand lo ln mine task σ retries (r.among draws c s).2.1
      (r.among draws c s).2.2 := by
  induction draws generalizing r c s with
  | nil => exact h
  | cons n rest ih =>
      refine ih ((h.skip n).step hdata fun t ht => ?_) hmine
      exact hmine t ((begun_among rest _ _ _).subset ht)

theorem new (hsound : s.traffic.store.IsSound lo ln) (hlog : s.traffic.log = [])
    (hothers : ∀ batch ∈ s.coming, ∀ a ∈ batch, ∀ t, mine t → a.owner? ≠ some t) (task : Task V)
    (σ : Seniority) (c : Coordinator κ) :
    (Run.new task σ c.settings c.lifetime).InHand lo ln mine task σ c.settings.maxTaskRetries c s :=
  ⟨⟨hsound, hothers⟩, rfl, rfl, Nat.zero_add _, .nil, by simp [Run.new, begun], by simp [hlog],
    by simp [Run.new], .nil, .beginning⟩

end InHand

/-- How the last attempt of a run has ended. -/
theorem InHand.ended (h : r.InHand lo ln mine task σ retries c s) {result : Except StoreError V}
    (hended : r.stage = .ended result) :
    (∃ value, result = .ok value ∧ task (r.earlier.map (·.2)) r.history = .stop (.ok value) ∧
        s.traffic.IsCommitted r.txn σ) ∨
      ∃ e, result = .error e ∧
        s.traffic.FailedWith task (r.earlier.map (·.2)) (r.txn, r.history) e ∧
        (e.shouldRetry = true → r.retriesLeft = 0) ∧ s.traffic.IsGone lo ln r.txn σ := by
  have hstands := h.stands
  have hmove : r.move = task (r.earlier.map (·.2)) r.history := by rw [move, h.task_eq]
  rw [hended] at hstands
  rw [← h.seniority_eq, ← h.task_eq]
  cases hstands with
  | working hworking => cases hworking
  | @committed value hmoved hcommitted => exact Or.inl ⟨value, rfl, hmoved, hcommitted⟩
  | @failed e hfailed hspent hgone => exact Or.inr ⟨e, rfl, hfailed, hspent, hgone⟩

/-- Whatever has become of the current attempt, its seniority is that of the run. -/
theorem Stands.seniority {w : Traffic ρo ρn Memory} {stage : RunStage V}
    (h : r.Stands lo ln w stage) (hne : stage ≠ .beginning) :
    (w.store.register.find r.txn).seniority = r.seniority := by
  cases h with
  | beginning => exact absurd rfl hne
  | working _ hpending => exact hpending.seniority
  | committing _ hpending => exact hpending.seniority
  | failing _ hpending => exact hpending.seniority
  | committed _ hcommitted => exact hcommitted.seniority
  | failed _ _ hgone => exact hgone.seniority

end Run

end ObjectStore
