/-
The protocol between the store and whoever commits.

From its beginning on the status of a transaction follows its course (`Txn.Course`), whatever comes
in between.  The log counts how often a participant call has finished the transaction: never, as
long as the participant is not done, and once from then on.  Every participant call that comes later
is refused, and leaves the store as it finds it.
-/
import ObjectStore.Proofs.Store.Desk

namespace ObjectStore

/-- Whether a participant call is seen to have finished the transaction.  A prepare has, if there
was nothing to commit. -/
def DeskEvent.finishes (t : TxnId) : DeskEvent → Bool
  | .participated _ _ (.ok (.readOnly false)) => false
  | .participated u _ (.ok _) => decide (u = t)
  | _ => false

namespace Desk

variable {d d' : Desk}

/-- The log shows how often a transaction has been finished. -/
def Tallied (d : Desk) : Prop :=
  ∀ t, d.log.countP (DeskEvent.finishes t) = (d.store.register.find t).done.toNat

/-- Only a participant call makes anybody done, or is seen to finish anything. -/
theorem Move.keepsDone_or_participates (h : d.Move d') (hregular : d.store.register.Regular) :
    d.store.register.KeepsDone d'.store.register ∧
        (d'.log = d.log ∨ ∃ t op before result, d'.log = d.log ++ [.answered t op before result]) ∨
      ∃ t call result, Participated d.store t call result d'.store ∧
        d'.log = d.log ++ [.participated t call result] := by
  cases h with
  | rest => exact Or.inl ⟨fun _ => rfl, Or.inl rfl⟩
  | aside hregister =>
      refine Or.inl ⟨?_, Or.inl rfl⟩
      rw [hregister]
      exact fun _ => rfl
  | begins hnew => exact Or.inl ⟨Register.keepsDone_start hnew _ _, Or.inl rfl⟩
  | @starts number t op stage store _ _ hstart =>
      obtain ⟨stage', register, hstart', hwounded, -⟩ := Traffic.start_cases d.store t op
      rw [hstart] at hstart'
      cases hstart'
      exact Or.inl ⟨hwounded.keepsDone, Or.inl rfl⟩
  | resumes => exact Or.inl ⟨fun _ => rfl, Or.inl rfl⟩
  | @proceeds number e stage store _ hcan hstep =>
      have hlisted := operationStep_step d.store e.t hcan
      rw [hstep] at hlisted
      refine Or.inl ⟨?_, ?_⟩
      · rw [store_arrive]
        exact (hlisted.course hregular).2
      · unfold arrive
        split
        · exact Or.inr ⟨_, _, _, _, rfl⟩
        · exact Or.inl rfl
        · exact Or.inl rfl
  | participates _ _ hended => exact Or.inr ⟨_, _, _, hended, rfl⟩
  | @aborts t f _ hf =>
      refine Or.inl ⟨Register.keepsDone_update (f := f) ?_, Or.inl rfl⟩
      rcases hf (d.store.register.find t) with hsame | ⟨-, cause, haborted⟩
      · rw [hsame]
      · rw [haborted]
        rfl

/-- A participant call is seen to finish its transaction exactly if it makes the participant done,
which it was not before. -/
theorem done_of_participated {s s' : LockingStore Memory} {t : TxnId} {call : ParticipantCall}
    {result : Except StoreError Reply} (h : Participated s t call result s') (u : TxnId) :
    (s'.register.find u).done.toNat =
      (s.register.find u).done.toNat + [DeskEvent.participated t call result].countP
        (DeskEvent.finishes u) := by
  by_cases hu : t = u
  · subst hu
    cases h with
    | refused hlook hregister =>
        rw [hregister.self, Txn.done_of_look (Or.inr ⟨_, hlook⟩)]
        rfl
    | fails hlook hcall hregister =>
        rw [hregister.self, Txn.done_of_look (Or.inl hcall)]
        rfl
    | prepares hcall hlook hregister =>
        rw [hregister.self, Txn.done_of_look (Or.inl (by simp [hcall]))]
        rfl
    | commits hcall hreply hlook hregister =>
        rw [hregister.self, Txn.done_of_look_eq_ok hlook, hreply]
        split <;> simp [DeskEvent.finishes, Txn.completeCommit]
    | aborts hcall hlook hregister =>
        subst hcall
        rcases Txn.look_ok_cases hlook with ⟨hcall, -⟩ | ⟨hcall, -⟩ | ⟨-, -, -, hdone⟩
        · simp at hcall
        · cases hcall
        · rw [hregister.self, hdone, Txn.done_of_look_eq_ok hlook]
          simp [DeskEvent.finishes]
  · have hsame : s'.register.find u = s.register.find u := by
      cases h with
      | refused _ hregister => exact hregister.others u hu
      | fails _ _ hregister => exact hregister.others u hu
      | prepares _ _ hregister => exact hregister.others u hu
      | commits _ _ _ hregister => exact hregister.others u hu
      | aborts _ _ hregister => exact hregister.others u hu
    have hunseen : DeskEvent.finishes u (.participated t call result) = false := by
      rcases result with e | reply
      · rfl
      · cases reply with
        | readOnly isReadOnly => cases isReadOnly <;> simp [DeskEvent.finishes, hu]
        | _ => simp [DeskEvent.finishes, hu]
    simp [hsame, hunseen]

theorem Tallied.move (h : d.Tallied) (hmove : d.Move d') (hregular : d.store.register.Regular) :
    d'.Tallied := by
  intro t
  rcases hmove.keepsDone_or_participates hregular with
    ⟨hkeeps, hsame | ⟨u, op, before, result, hlog⟩⟩ | ⟨u, call, result, hended, hlog⟩
  · rw [hsame, hkeeps t]
    exact h t
  · rw [hlog, hkeeps t, List.countP_append, h t]
    rfl
  · rw [hlog, List.countP_append, h t, done_of_participated hended t]

theorem Tallied.run (shards : Nat) (actions : List DeskAction) :
    ((new shards).run actions).Tallied := by
  refine (run_induction (P := fun d => d.store.register.Regular ∧ d.Tallied)
    ⟨Register.regular_empty, fun _ => rfl⟩ (fun d a h => ?_) actions).2
  have hmove := move_perform d a
  exact ⟨(hmove.course h.1).regular, h.2.move hmove h.1⟩

theorem participate_of_done (s : LockingStore Memory) {t : TxnId}
    (hdone : (s.register.find t).done = true) (call : ParticipantCall) :
    (s.participate t call).1 = .error (s.register.find t).alreadyFinished ∧
      (∀ u, (s.participate t call).2.register.find u = s.register.find u) ∧
      (s.participate t call).2.backend = s.backend ∧
      (s.participate t call).2.objects = s.objects ∧ (s.participate t call).2.names = s.names := by
  have hrefused := Txn.look_of_done hdone call s.now
  have hended := s.participated_participate t call
  generalize s.participate t call = ended at hended
  obtain ⟨result, s'⟩ := ended
  cases hended with
  | @refused e register hlook hregister =>
      rw [hrefused] at hlook hregister
      cases hlook
      refine ⟨rfl, ?_, rfl, rfl, rfl⟩
      intro u
      by_cases hu : t = u
      · subst hu
        exact hregister.self
      · exact hregister.others u hu
  | fails hlook => exact absurd hlook (by simp [hrefused])
  | prepares _ hlook => exact absurd hlook (by simp [hrefused])
  | commits _ _ hlook => exact absurd hlook (by simp [hrefused])
  | aborts _ hlook => exact absurd hlook (by simp [hrefused])

/--
**The participant's protocol.**  Let a transaction begin, and look at its status at two moments
after that, `txn` first and `txn'` later.  The state has moved on, if at all; a cause is known
exactly of an abort, and is the first one; the participant stays done, and only with what has ended.
It is done exactly if one participant call has finished the transaction, and there is never a second
one: a call on a transaction whose participant is done is refused, and changes neither a status nor
the backend nor a lock.
-/
theorem participant_protocol (shards : Nat) (actions₀ : List DeskAction) (t : TxnId)
    (hnew : ((new shards).run actions₀).store.register.isKnown t = false)
    (seniority : Seniority) (lifetime : Nat) (actions actions' : List DeskAction) :
    let d := (new shards).run (actions₀ ++ .begin t seniority lifetime :: actions)
    let d' := d.run actions'
    let txn := d.store.register.find t
    let txn' := d'.store.register.find t
    txn.state.MayBecome txn'.state ∧
      (txn'.cause.isSome = true ↔ txn'.state = .aborted) ∧
      (∀ cause, txn.cause = some cause → txn'.cause = some cause) ∧
      (txn.done = true → txn'.done = true) ∧
      (txn'.done = true → txn'.state = .committed ∨ txn'.state = .aborted) ∧
      d'.log.countP (DeskEvent.finishes t) = txn'.done.toNat ∧
      (txn'.done = true → ∀ call,
        (∃ text, (d'.store.participate t call).1 = .error (.illegalState text)) ∧
          (∀ u, (d'.store.participate t call).2.register.find u = d'.store.register.find u) ∧
          (d'.store.participate t call).2.backend = d'.store.backend ∧
          (d'.store.participate t call).2.objects = d'.store.objects ∧
          (d'.store.participate t call).2.names = d'.store.names) := by
  intro d d' txn txn'
  let d₀ := (new shards).run actions₀
  let d₁ := d₀.perform (.begin t seniority lifetime)
  have hd : d = d₁.run actions := by simp [d, d₀, d₁, run]
  have hstart : d₁.store.register = d₀.store.register.start t seniority (d₀.store.now + lifetime) := by
    simp only [d₁, perform, d₀, hnew]
    rfl
  have hbegun : d₁.store.register.find t = .start t seniority (d₀.store.now + lifetime) := by
    rw [hstart, Register.find_start_self]
  have hknown : d₁.store.register.isKnown t = true := by
    rw [hstart]
    exact (Register.isKnown_start _ _).mpr (Or.inl rfl)
  have hregular : d₁.store.register.Regular :=
    ((move_perform d₀ _).course (regular_run shards actions₀)).regular
  have hcourse₁ : d₁.store.register.Course d.store.register := hd ▸ course_run hregular actions
  have hcourse : txn.Course txn' :=
    (course_run hcourse₁.regular actions').find t (hcourse₁.known t hknown)
  have htold : txn'.state = .aborted → txn'.cause.isSome = true := by
    refine ((hcourse₁.find t hknown).trans hcourse).told ?_
    rw [hbegun]
    exact fun h => absurd h (by simp [Txn.start])
  refine ⟨hcourse.state, ⟨?_, htold⟩, hcourse.cause, hcourse.done, hcourse.regular.done, ?_, ?_⟩
  · intro hcause
    by_contra hstate
    rw [hcourse.regular.cause hstate] at hcause
    cases hcause
  · have htally := Tallied.run shards (actions₀ ++ .begin t seniority lifetime :: actions ++ actions')
    have hrun : (new shards).run (actions₀ ++ .begin t seniority lifetime :: actions ++ actions') =
        d' := by
      simp [d, d', run]
    rw [hrun] at htally
    exact htally t
  · intro hdone call
    obtain ⟨hrefused, hsame⟩ := participate_of_done d'.store hdone call
    exact ⟨⟨_, hrefused⟩, hsame⟩

/-- A transaction that makes an object and commits it is finished once, and refuses every further
call. -/
theorem participant_protocol_of_creation :
    let d' := (new 1).run
      [.begin ⟨1⟩ ⟨1, 0⟩ 9, .operate 0 ⟨1⟩ .create, .proceed, .participate ⟨1⟩ .prepareAndCommit]
    (d'.store.register.find ⟨1⟩).state = .committed ∧
      d'.log.countP (DeskEvent.finishes ⟨1⟩) = 1 ∧
      ∀ call, ∃ text, (d'.store.participate ⟨1⟩ call).1 = .error (.illegalState text) := by
  obtain ⟨-, -, -, -, -, hcount, hrefused⟩ := participant_protocol 1 [] ⟨1⟩ rfl ⟨1, 0⟩ 9
    [.operate 0 ⟨1⟩ .create, .proceed] [.participate ⟨1⟩ .prepareAndCommit]
  exact ⟨rfl, hcount, fun call => (hrefused rfl call).1⟩

end Desk

end ObjectStore
