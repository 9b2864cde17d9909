/-
Reads that are repeated.

A `get` tells what is committed of the object under what the transaction has itself written, at the
moment of the read; the log says what that is (`told_of_answered`).  So a second `get` tells what
those who have committed in between have made of the first answer.

As long as the transaction is open it holds the object, and nobody who commits has been allowed to
write it.  But no access is reported to an object that is new.  Others may use the number of an object
before the transaction that has made it commits, and when that one commits it writes the object anew.
-/
import ObjectStore.Proofs.Store.Atomicity
import ObjectStore.Proofs.Store.Cover

namespace ObjectStore

/-- What a `get` answers, by what is seen of the object. -/
def told (oid : ObjectId) : Option Bytes → Except StoreError Reply
  | some data => .ok (.data data)
  | none => .error (.objectNotFound oid)

/-- What a transaction sees of an object, by what has been committed and what it has written. -/
def seenIn (log : List Event) (t : TxnId) (oid : ObjectId) : Option Bytes :=
  Write.objectAfter oid none (settled log ++ ledger t log)

theorem told_eq_data {oid : ObjectId} {seen : Option Bytes} {data : Bytes} :
    told oid seen = .ok (.data data) ↔ seen = some data := by
  cases seen <;> simp [told]

/-! ### One read -/

theorem eq_ok_of_ofResult {result : Except StoreError Reply} {result' : Except StoreError Reply}
    (h : .ended result' = Stage.ofResult result) : result = result' := by
  cases result with
  | ok => exact (Stage.ended.inj h).symm
  | error => cases h

theorem error_eq_of_ofResult {result : Except StoreError Reply} {e : StoreError}
    (h : .failing e = Stage.ofResult result) : result = .error e := by
  cases result with
  | ok => cases h
  | error => exact congrArg Except.error (Stage.failing.inj h).symm

/-- The plan of an operation on one object, which is all that it ever carries out. -/
def Operation.onePlan? : Operation → Option Plan
  | .create => some .create
  | .mark oid => some (.mark oid)
  | .get oid _ => some (.get oid)
  | .set oid data => some (.set oid data)
  | .remove oid => some (.remove oid)
  | _ => none

theorem Plan.eq_of_onePlan? {op : Operation} {plan plan' : Plan} (h : op.onePlan? = some plan')
    (hserves : plan.Serves op) (hfits : plan.Fits op) : plan = plan' := by
  cases plan with
  | get oid =>
      obtain ⟨_, rfl⟩ := hserves
      exact Option.some.inj h
  | setMany =>
      obtain ⟨_, _, rfl, -⟩ := hserves
      cases h
  | confirm scan =>
      cases scan
      · obtain rfl := hfits
        cases h
      · obtain rfl := hfits
        cases h
  | answer =>
      rcases hfits with ⟨_, rfl, -⟩ | ⟨_, _, rfl, -⟩ | ⟨_, rfl⟩
      · cases h
      · cases h
      · cases h
  | create =>
      obtain rfl := hserves
      exact Option.some.inj h
  | mark =>
      obtain rfl := hserves
      exact Option.some.inj h
  | set =>
      obtain rfl := hserves
      exact Option.some.inj h
  | remove =>
      obtain rfl := hserves
      exact Option.some.inj h
  | classId =>
      obtain rfl := hserves
      cases h
  | classInfo =>
      obtain rfl := hserves
      cases h
  | _ =>
      obtain rfl := hfits
      cases h

/-- A read tells what the transaction sees, unless the backend is shut down. -/
theorem stage_of_act_get {s : LockingStore Memory} {t : TxnId} {oid : ObjectId} {stage' : Stage}
    {m' : Memory} (h : s.act t (.get oid) = (stage', { s with backend := m' })) :
    s.backend.isShutDown = false ∧ stage' = .ofResult (told oid (s.backend.object? t oid)) ∨
      ∃ e, stage' = .failing e ∧ ∀ oid, e ≠ .objectNotFound oid := by
  cases hshut : s.backend.isShutDown with
  | true =>
      refine Or.inr ?_
      have hrefused := Memory.perform_of_isShutDown (c := .get oid) (t := t) hshut rfl
      rcases callThen_cases h with ⟨a, hperform, -⟩ | ⟨e, hperform, rfl⟩
      · rw [hrefused] at hperform
        cases hperform
      · rw [hrefused] at hperform
        cases hperform
        exact ⟨_, rfl, by simp⟩
  | false =>
      refine Or.inl ⟨rfl, ?_⟩
      have hread : Memory.perform (.get oid) t s.backend = (s.backend.require t oid, s.backend) :=
        Memory.perform_of_open hshut
      unfold Memory.require at hread
      rcases callThen_cases h with ⟨a, hperform, rfl⟩ | ⟨e, hperform, rfl⟩
      · rw [hread] at hperform
        cases hobject : s.backend.object? t oid with
        | none => simp [hobject] at hperform
        | some data =>
            rw [hobject] at hperform
            cases hperform
            rfl
      · rw [hread] at hperform
        cases hobject : s.backend.object? t oid with
        | none =>
            rw [hobject] at hperform
            cases hperform
            rfl
        | some data => simp [hobject] at hperform

namespace Traffic

variable {w w' : LockingTraffic Memory} {t u : TxnId} {oid : ObjectId}

theorem Move.endsIn (hmove : w.Move w') {op : Operation} {result : Except StoreError Reply}
    (hlog : w'.log = w.log ++ [.answered t op result]) :
    ∃ stage, w.calls.get? t = some (.operation op stage) ∧
      OperationStep w.store t stage (.ended result) w'.store := by
  have hstill : ∀ {log : List Event}, log ≠ log ++ [.answered t op result] := by
    intro log hsame
    exact absurd (List.self_eq_append_right.mp hsame) (by simp)
  rcases hmove.beside_or_own t with hbeside | hown
  · obtain ⟨events, hevents, hnothing, -⟩ := hbeside.log
    have heq := List.append_cancel_left (hevents.symm.trans hlog)
    exact absurd (by rw [heq]; exact List.mem_singleton_self _) (hnothing op result)
  · cases hown with
    | begins => exact absurd hlog hstill
    | starts => exact absurd hlog hstill
    | participates => exact absurd hlog hstill
    | @operation op' stage stage' store hcall hstep =>
        have hevents : Event.ofStep t op' stage stage' = [] ++ .answered t op result :: [] :=
          List.append_cancel_left hlog
        obtain ⟨-, -, rfl, rfl⟩ := Event.ofStep_eq_answered hevents
        exact ⟨stage, hcall, hstep⟩
    | @participation call stage stage' store hcall hstep =>
        have hevents : Event.ofParticipantStep t call stage stage' = [.answered t op result] :=
          List.append_cancel_left hlog
        exact absurd (by rw [hevents]; exact List.mem_singleton_self _)
          (answered_not_mem_ofParticipantStep t t call op stage stage' result)

theorem Move.answers (hmove : w.Move w') {op : Operation} {result : Except StoreError Reply}
    (hlog : w'.log = w.log ++ [.answered t op result]) :
    ∃ stage store, w.calls.get? t = some (.operation op stage) ∧
      OperationStep w.store t stage (.ended result) store := by
  obtain ⟨stage, hcall, hstep⟩ := hmove.endsIn hlog
  exact ⟨stage, w'.store, hcall, hstep⟩

/-- Some moment of the log tells this of an object, and the transaction has had no answer since. -/
def Told (log : List Event) (t : TxnId) (oid : ObjectId) (result : Except StoreError Reply) : Prop :=
  ∃ before after, log = before ++ after ∧ (∀ op result, .answered t op result ∉ after) ∧
    result = told oid (seenIn before t oid)

/-- A `get` that is about to fail has read that there is no such object. -/
def Misses (w : LockingTraffic Memory) (t : TxnId) : Prop :=
  ∀ oid forUpdate oid', w.calls.get? t =
      some (.operation (.get oid forUpdate) (.failing (.objectNotFound oid'))) →
    Told w.log t oid (.error (.objectNotFound oid'))

/-- What a transaction sees when its operation is about to call the backend and has written nothing. -/
theorem seenIn_of_writes (hsettled : Settled w) (haccounted : Accounted w t) {op : Operation}
    {plan : Plan} (hcall : w.calls.get? t = some (.operation op (.act plan)))
    (hnothing : (Stage.act plan).writes op = []) (hserved : w.store.backend.isShutDown = false)
    (oid : ObjectId) : w.store.backend.object? t oid = seenIn w.log t oid := by
  have hdraft : draft w.calls w.log t = ledger t w.log ++ (Stage.act plan).writes op :=
    pledged_of_operation hcall
  rw [hsettled.object?_eq haccounted (Or.inr ⟨hserved, _, _, hcall⟩), hdraft, hnothing,
    List.append_nil]
  rfl

theorem seenIn_of_act (hsettled : Settled w) (haccounted : Accounted w t) {op : Operation}
    {plan : Plan} (hcall : w.calls.get? t = some (.operation op (.act plan)))
    (hundecided : plan.outcome? = none) (hserved : w.store.backend.isShutDown = false)
    (oid : ObjectId) : w.store.backend.object? t oid = seenIn w.log t oid := by
  refine seenIn_of_writes hsettled haccounted hcall ?_ hserved oid
  unfold Stage.writes Stage.gathered
  rw [show (Stage.act plan).outcome? = none from hundecided]

theorem Misses.perform (h : Misses w t) (hsound : Sound w) (hsettled : Settled w)
    (haccounted : Accounted w t) (a : StoreAction) : Misses (w.perform a) t := by
  intro oid forUpdate oid' hcall'
  have hmove := move_perform w a
  have hbegun : w.calls.get? t = none → False := by
    intro hfree
    rcases begins_of_free hfree hcall' with heq | ⟨e, heq, he⟩
    · cases heq
    · cases heq
      exact he oid' rfl
  have hgoesOn : ∀ {events}, (w.perform a).log = w.log ++ events →
      (∀ op result, .answered t op result ∉ events) →
      Told w.log t oid (.error (.objectNotFound oid')) →
      Told (w.perform a).log t oid (.error (.objectNotFound oid')) := by
    rintro events hlog hnothing ⟨before, after, hold, hquiet, htold⟩
    refine ⟨before, after ++ events, by rw [hlog, hold, List.append_assoc], ?_, htold⟩
    intro op result hin
    exact (List.mem_append.mp hin).elim (hquiet op result) (hnothing op result)
  rcases hmove.beside_or_own t with hbeside | hown
  · obtain ⟨events, hlog, hnothing, -⟩ := hbeside.log
    rw [hbeside.call] at hcall'
    exact hgoesOn hlog hnothing (h oid forUpdate oid' hcall')
  · generalize w.perform a = w' at hcall' hown hgoesOn
    cases hown with
    | begins => exact h oid forUpdate oid' hcall'
    | starts hfree => exact (hbegun hfree).elim
    | participates hfree => exact (hbegun hfree).elim
    | @participation call stage stage' store hcall hstep =>
        rw [FinMap.get?_change_self] at hcall'
        exact absurd hcall' (Call.ofParticipantStage_ne_operation call stage' _ _)
    | @operation op stage stage' store hcall hstep =>
        rw [FinMap.get?_change_self] at hcall'
        obtain ⟨rfl, rfl⟩ := Call.ofStage_eq hcall'
        obtain ⟨plan, backend, rfl, hact⟩ := hstep.act_of_notFound
        obtain rfl := plan.eq_of_onePlan? rfl (haccounted.serves _ _ hcall)
          ((hsound.traced t).fits _ _ hcall).1
        refine ⟨w.log, [], rfl, fun _ _ => List.not_mem_nil, ?_⟩
        rcases stage_of_act_get hact with ⟨hserved, hstage⟩ | ⟨e, hstage, he⟩
        · rw [← seenIn_of_act hsettled haccounted hcall rfl hserved oid]
          exact (error_eq_of_ofResult hstage).symm
        · cases hstage
          exact absurd rfl (he oid')

theorem Misses.run (shards : Nat) (actions : List StoreAction) (t : TxnId) :
    Misses ((Traffic.new shards Memory.empty).run actions) t := by
  induction actions using List.reverseRecOn with
  | nil => exact fun _ _ _ hcall => absurd hcall (by simp [Traffic.run, Traffic.new])
  | append_singleton actions a ih =>
      rw [run_concat]
      exact ih.perform (Sound.run shards actions) (Settled.run shards actions)
        (Accounted.run shards actions t) a

/-! ### Moments of a run -/

section Moments

variable {shards : Nat} {actions : List StoreAction} {before rest : List Event} {e : Event}

/-- Whatever stands in the log was added to what stands before it by one action. -/
theorem exists_moment
    (hlog : ((Traffic.new shards Memory.empty).run actions).log = before ++ e :: rest) :
    ∃ actions' a, actions' ++ [a] <+: actions ∧
      ((Traffic.new shards Memory.empty).run actions').log = before ∧
        ((Traffic.new shards Memory.empty).run (actions' ++ [a])).log = before ++ [e] := by
  induction actions using List.reverseRecOn generalizing rest with
  | nil => exact absurd hlog (by simp [Traffic.run, Traffic.new])
  | append_singleton actions a ih =>
      have hlater : ∀ {rest'},
          ((Traffic.new shards Memory.empty).run actions).log = before ++ e :: rest' →
          ∃ actions' a', actions' ++ [a'] <+: actions ++ [a] ∧
            ((Traffic.new shards Memory.empty).run actions').log = before ∧
              ((Traffic.new shards Memory.empty).run (actions' ++ [a'])).log = before ++ [e] := by
        intro rest' hold
        obtain ⟨actions', a', hpre, hmoment⟩ := ih hold
        exact ⟨actions', a', hpre.trans (List.prefix_append actions [a]), hmoment⟩
      have hnow := hlog
      rw [run_concat] at hnow
      rcases log_perform ((Traffic.new shards Memory.empty).run actions) a with hsame | ⟨e', hone⟩
      · exact hlater (hsame.symm.trans hnow)
      · rcases append_eq_append_cons (hone.symm.trans hnow) with
          ⟨rest', hold, -⟩ | ⟨before', hbefore, hevents⟩
        · exact hlater hold
        · obtain ⟨rfl, hcons⟩ : before' = [] ∧ [e'] = e :: rest := by
            cases before' with
            | nil => exact ⟨rfl, hevents⟩
            | cons x xs => simp at hevents
          obtain ⟨rfl, rfl⟩ := List.cons.inj hcons
          rw [List.append_nil] at hbefore
          exact ⟨actions, a, List.prefix_refl _, hbefore.symm, hlog⟩

theorem told_of_answered {t : TxnId} {oid : ObjectId} {forUpdate : Bool}
    {result : Except StoreError Reply}
    (hlog : ((Traffic.new shards Memory.empty).run actions).log =
      before ++ .answered t (.get oid forUpdate) result :: rest)
    (hdata : isInData result = true) :
    result = told oid (seenIn before t oid) ∨ (∃ e, result = .error e) ∧ Told before t oid result := by
  obtain ⟨actions', a, -, rfl, hafter⟩ := exists_moment hlog
  rw [run_concat] at hafter
  have hsound := Sound.run shards actions'
  have haccounted := Accounted.run shards actions' t
  obtain ⟨stage, store, hcall, hstep⟩ := (move_perform _ a).answers hafter
  rcases hstep.ended_cases with ⟨plan, backend, rfl, hact⟩ | ⟨e, rfl, rfl⟩
  · refine Or.inl ?_
    obtain rfl := plan.eq_of_onePlan? rfl (haccounted.serves _ _ hcall)
      ((hsound.traced t).fits _ _ hcall).1
    rcases stage_of_act_get hact with ⟨hserved, hstage⟩ | ⟨e, hstage, -⟩
    · rw [← seenIn_of_act (Settled.run shards actions') haccounted hcall rfl hserved oid]
      exact (eq_ok_of_ofResult hstage).symm
    · cases hstage
  · refine Or.inr ⟨⟨e, rfl⟩, ?_⟩
    cases e with
    | objectNotFound oid' => exact Misses.run shards actions' t oid forUpdate oid' hcall
    | _ => cases hdata

/-- Whoever has been committed writes nothing more. -/
theorem ledger_of_committed (hlog : ((Traffic.new shards Memory.empty).run actions).log = before ++ rest)
    (hin : u ∈ commits before) : ledger u rest = [] := by
  refine List.eq_nil_iff_forall_not_mem.mpr fun x hx => ?_
  obtain ⟨event, hevent, hwrite⟩ := List.mem_flatMap.mp hx
  cases event with
  | answered v op result =>
      simp only [Event.gathered] at hwrite
      split at hwrite
      · rename_i hv
        subst hv
        obtain ⟨rest₁, rest₂, rfl⟩ := List.append_of_mem hevent
        rw [← List.append_assoc] at hlog
        obtain ⟨actions', a, -, hbefore, hafter⟩ := exists_moment hlog
        rw [run_concat, ← hbefore] at hafter
        obtain ⟨stage, store, hcall, hstep⟩ := (move_perform _ a).answers hafter
        have hcommitted : v ∈ commits ((Traffic.new shards Memory.empty).run actions').log := by
          rw [hbefore]
          exact mem_commits_append.mpr (Or.inl hin)
        obtain ⟨e, rfl, -⟩ := (Sound.run shards actions').failing_of_mem_commits hcommitted hcall
        have hnothing := (Accounted.run shards actions' v).spent hcommitted _ _ hcall
        cases hstep
        rw [show op.writes (.error e) = [] from hnothing] at hwrite
        exact absurd hwrite List.not_mem_nil
      · exact absurd hwrite List.not_mem_nil
  | _ => exact absurd hwrite List.not_mem_nil

theorem ledger_append_of_committed
    (hlog : ((Traffic.new shards Memory.empty).run actions).log = before ++ rest)
    (hin : u ∈ commits before) : ledger u (before ++ rest) = ledger u before := by
  rw [ledger_append, ledger_of_committed hlog hin, List.append_nil]

/-- What is settled in a part of a log is what those have written who are committed there. -/
theorem settled_append {part : List Event}
    (hlog : ((Traffic.new shards Memory.empty).run actions).log = before ++ part ++ rest) :
    settled (before ++ part) =
      settled before ++ (commits part).flatMap (ledger · (before ++ part ++ rest)) := by
  unfold settled
  rw [commits_append, List.flatMap_append]
  refine congrArg₂ (· ++ ·) (List.flatMap_congr fun u hin => ?_) (List.flatMap_congr fun u hin => ?_)
  · rw [List.append_assoc] at hlog
    have hnothing : ledger u (part ++ rest) = [] := ledger_of_committed hlog hin
    rw [ledger_append] at hnothing
    rw [ledger_append, (List.append_eq_nil_iff.mp hnothing).1, List.append_nil]
  · exact (ledger_append_of_committed hlog (mem_commits_append.mpr (Or.inr hin))).symm

theorem seenIn_append {part : List Event} {t : TxnId} {oid : ObjectId} {d : Bytes}
    (hlog : ((Traffic.new shards Memory.empty).run actions).log = before ++ part ++ rest)
    (hquiet : ∀ data, .object oid data ∉ ledger t part) (hseen : seenIn before t oid = some d) :
    seenIn (before ++ part) t oid = Write.objectAfter oid (some d)
      ((commits part).flatMap (ledger · (before ++ part ++ rest)) ++ ledger t before) := by
  have huntouched : ∀ value, Write.objectAfter oid value (ledger t part) = value := by
    rcases Write.objectAfter_cases oid (ledger t part) with ⟨-, hsame⟩ | ⟨data, hin, -⟩
    · exact hsame
    · exact absurd hin (hquiet data)
  unfold seenIn at hseen ⊢
  rw [ledger_append, settled_append hlog]
  simp only [Write.objectAfter_append, huntouched] at hseen ⊢
  -- What the transaction has written itself hides what others have.
  rcases Write.objectAfter_cases oid (ledger t before) with ⟨-, hsame⟩ | ⟨data, -, hfixed⟩
  · rw [hsame] at hseen
    rw [hseen]
  · rw [hfixed, hfixed]

end Moments

/-! ### Commits between two reads -/

theorem exists_commit {shards : Nat} {actions : List StoreAction} {before rest : List Event}
    (hlog : ((Traffic.new shards Memory.empty).run actions).log = before ++ .committed u :: rest) :
    ∃ actions', actions' <+: actions ∧
      ((Traffic.new shards Memory.empty).run actions').log = before ∧
        Live ((Traffic.new shards Memory.empty).run actions') u := by
  obtain ⟨actions', a, ⟨later, rfl⟩, hbefore, hafter⟩ := exists_moment hlog
  refine ⟨actions', ⟨a :: later, by simp⟩, hbefore, ?_⟩
  rw [← hbefore, run_concat] at hafter
  rcases (move_perform _ a).commits_or_names with ⟨-, hsame⟩ | ⟨v, hcommits⟩
  · rw [hafter, commits_append] at hsame
    exact absurd hsame (by simp [commits, Event.committer?])
  · have hevents := List.append_cancel_left (hcommits.log.symm.trans hafter)
    obtain rfl : v = u := by simpa using hevents
    exact (Sound.run shards actions').live_of_commits hcommits

/-- **Nobody who commits while a transaction has access to an object has been allowed to write it**:
they have made it. -/
theorem created_of_commits {shards : Nat} {actions : List StoreAction} {before part rest : List Event}
    {mode : LockMode} {data : Option Bytes}
    (hlog : ((Traffic.new shards Memory.empty).run actions).log = before ++ part ++ rest)
    (haccess : .accessed t (.object oid mode) ∈ before)
    (hopen : ((Traffic.new shards Memory.empty).run actions).store.register.isOpen t = true)
    (hne : u ≠ t) (hin : u ∈ commits part)
    (hwrite : .object oid data ∈ ledger u (before ++ part ++ rest)) :
    .answered u .create (.ok (.object oid)) ∈ before ++ part ∧ data = some [] := by
  obtain ⟨event, hevent, hcommitter⟩ := List.mem_filterMap.mp hin
  obtain rfl : event = .committed u := by
    cases event <;> cases hcommitter
    rfl
  obtain ⟨part₁, part₂, rfl⟩ := List.append_of_mem hevent
  have hsplit : before ++ (part₁ ++ .committed u :: part₂) ++ rest =
      (before ++ part₁) ++ .committed u :: (part₂ ++ rest) := by
    simp
  rw [hsplit] at hlog hwrite
  obtain ⟨actions', hpre, hbefore, hlive⟩ := exists_commit hlog
  have hsound := Sound.run shards actions'
  -- At that moment both are open.
  have haccess' : .accessed t (.object oid mode) ∈
      ((Traffic.new shards Memory.empty).run actions').log := by
    rw [hbefore]
    exact List.mem_append_left _ haccess
  have hopen' : ((Traffic.new shards Memory.empty).run actions').store.register.isOpen t = true := by
    obtain ⟨later, rfl⟩ := hpre
    rw [run_append] at hopen
    exact (after_run _ _).opens t (hsound.retains.orderly.accessed t _ haccess') hopen
  have hwritten : .object oid data ∈ ledger u ((Traffic.new shards Memory.empty).run actions').log := by
    have hcommitted : u ∈ commits (before ++ part₁ ++ [.committed u]) :=
      mem_commits_append.mpr (Or.inr (List.mem_singleton_self u))
    have hfrozen := ledger_append_of_committed (hlog.trans (List.append_cons _ _ _)) hcommitted
    rw [List.append_cons, hfrozen, ledger_append] at hwrite
    rw [hbefore]
    exact (List.mem_append.mp hwrite).resolve_right List.not_mem_nil
  rcases (Covered.run shards actions' u).created_or_accessed hwritten with ⟨hcreated, hdata⟩ | hallowed
  · refine ⟨?_, hdata⟩
    rw [hbefore] at hcreated
    refine (List.mem_append.mp hcreated).elim (List.mem_append_left _) fun hlater => ?_
    exact List.mem_append_right _ (List.mem_append_left _ hlater)
  · have hno := hsound.retains.agrees hne hallowed hlive.isOpen
      haccess' hopen'
    cases mode <;> simp [Access.conflictsWith, LockMode.conflictsWith] at hno

theorem accessed_of_get {shards : Nat} {actions : List StoreAction} {before rest : List Event}
    {forUpdate : Bool} {d : Bytes}
    (hlog : ((Traffic.new shards Memory.empty).run actions).log =
      before ++ .answered t (.get oid forUpdate) (.ok (.data d)) :: rest) :
    ∃ mode, .accessed t (.object oid mode) ∈ before := by
  obtain ⟨actions', a, -, -, hafter⟩ := exists_moment hlog
  have hcovered := (Covered.run shards (actions' ++ [a]) t).answered (.get oid forUpdate)
    (.ok (.data d)) (by rw [hafter]; simp) rfl _ (List.mem_singleton_self _)
  rw [hafter] at hcovered
  exact ⟨_, (List.mem_append.mp hcovered).resolve_right (by simp)⟩

/-- Whoever is still open has not been committed before an answer. -/
theorem not_mem_commits_of_isOpen {shards : Nat} {actions : List StoreAction}
    {before rest : List Event} {op : Operation} {result : Except StoreError Reply}
    (hlog : ((Traffic.new shards Memory.empty).run actions).log = before ++ .answered t op result :: rest)
    (hopen : ((Traffic.new shards Memory.empty).run actions).store.register.isOpen t = true) :
    t ∉ commits before := by
  intro hin
  obtain ⟨actions', a, ⟨later, rfl⟩, rfl, hafter⟩ := exists_moment hlog
  have hsound := Sound.run shards actions'
  rw [run_concat] at hafter
  obtain ⟨stage, store, hcall, -⟩ := (move_perform _ a).answers hafter
  rw [List.append_assoc, run_append] at hopen
  have hwas := (after_run _ _).opens t (hsound.retains.orderly.called t _ hcall) hopen
  rcases (hsound.consistent t).committed hin with hcommitted | ⟨call, reply, hc⟩
  · exact absurd (hwas.symm.trans (Register.isOpen_of_committed hcommitted)) (by simp)
  · exact absurd (hcall.symm.trans hc) (by simp)

/-- A transaction has made the object. -/
def Created (log : List Event) (u : TxnId) (oid : ObjectId) : Prop :=
  .answered u .create (.ok (.object oid)) ∈ log

theorem Created.mem_ledger {log : List Event} (h : Created log u oid) :
    .object oid (some []) ∈ ledger u log := by
  refine List.mem_flatMap.mpr ⟨_, h, ?_⟩
  simp [Event.gathered, Operation.writes]

/-- If all that others have written of an object is empty contents, what is seen is `d` again exactly
if `d` is empty, or hidden by own writes, or there are no such writes. -/
theorem objectAfter_eq_iff {d : Bytes} {others own : List Write}
    (hown : ∃ before, Write.objectAfter oid before own = some d)
    (hothers : ∀ data, .object oid data ∈ others → data = some []) :
    (∃ d', Write.objectAfter oid (some d) (others ++ own) = some d') ∧
      (Write.objectAfter oid (some d) (others ++ own) = some d ↔
        d = [] ∨ (∃ data, .object oid data ∈ own) ∨ ∀ data, .object oid data ∉ others) := by
  rw [Write.objectAfter_append]
  rcases Write.objectAfter_cases oid own with ⟨hnone, hsame⟩ | ⟨data, hin, hfixed⟩
  · rw [hsame]
    rcases Write.objectAfter_cases oid others with ⟨hnone', hsame'⟩ | ⟨data, hin, hfixed⟩
    · rw [hsame']
      exact ⟨⟨d, rfl⟩, fun _ => Or.inr (Or.inr hnone'), fun _ => rfl⟩
    · rw [hfixed, hothers data hin]
      refine ⟨⟨[], rfl⟩, fun heq => Or.inl (Option.some.inj heq).symm, ?_⟩
      rintro (rfl | ⟨data', hin'⟩ | hno)
      · rfl
      · exact absurd hin' (hnone data')
      · exact absurd hin (hno data)
  · obtain ⟨before, hbefore⟩ := hown
    have heq : data = some d := (hfixed before).symm.trans hbefore
    rw [hfixed, heq]
    exact ⟨⟨d, rfl⟩, fun _ => Or.inr (Or.inl ⟨data, hin⟩), fun _ => rfl⟩

section Again

variable {shards : Nat} {actions : List StoreAction} {forUpdate forUpdate' : Bool} {d : Bytes}
variable {result : Except StoreError Reply} {log₁ log₂ log₃ : List Event}

theorem seenIn_of_get
    (hlog : ((Traffic.new shards Memory.empty).run actions).log =
      log₁ ++ .answered t (.get oid forUpdate) (.ok (.data d)) :: log₂) :
    seenIn log₁ t oid = some d := by
  rcases told_of_answered hlog rfl with htold | ⟨⟨e, he⟩, -⟩
  · exact told_eq_data.mp htold.symm
  · cases he

/-- A second `get` tells what those who have committed by the moment of the read have made of the
first answer.  That moment is the moment of the answer, unless the object was not found. -/
theorem told_again
    (hlog : ((Traffic.new shards Memory.empty).run actions).log =
      log₁ ++ .answered t (.get oid forUpdate) (.ok (.data d)) :: log₂ ++
        .answered t (.get oid forUpdate') result :: log₃)
    (hquiet : ∀ data, .object oid data ∉ ledger t log₂) (hdata : isInData result = true) :
    ∃ seen rest, log₂ = seen ++ rest ∧ ((∃ e, result = .error e) ∨ rest = []) ∧
      result = told oid (Write.objectAfter oid (some d)
        ((commits seen).flatMap (ledger · ((Traffic.new shards Memory.empty).run actions).log) ++
          ledger t log₁)) := by
  have hfirst : seenIn log₁ t oid = some d :=
    seenIn_of_get (hlog.trans (by rw [List.append_assoc, List.cons_append]))
  obtain ⟨seen, rest, rfl, hrest, htold⟩ : ∃ seen rest, log₂ = seen ++ rest ∧
      ((∃ e, result = .error e) ∨ rest = []) ∧ result = told oid
        (seenIn (log₁ ++ .answered t (.get oid forUpdate) (.ok (.data d)) :: seen) t oid) := by
    rcases told_of_answered hlog hdata with htold | ⟨herror, before, rest, heq, hnothing, htold⟩
    · exact ⟨log₂, [], (List.append_nil _).symm, Or.inr rfl, htold⟩
    · rcases append_eq_append_cons heq.symm with ⟨seen, rfl, hlog₂⟩ | ⟨before', -, hrest⟩
      · exact ⟨seen, rest, hlog₂, Or.inl herror, htold⟩
      · refine absurd ?_ (hnothing (.get oid forUpdate) (.ok (.data d)))
        rw [hrest]
        exact List.mem_append_right _ List.mem_cons_self
  refine ⟨seen, rest, rfl, hrest, ?_⟩
  have hsplit : log₁ ++ .answered t (.get oid forUpdate) (.ok (.data d)) :: (seen ++ rest) ++
      .answered t (.get oid forUpdate') result :: log₃ =
        log₁ ++ (.answered t (.get oid forUpdate) (.ok (.data d)) :: seen) ++
          (rest ++ .answered t (.get oid forUpdate') result :: log₃) := by
    simp
  -- The first answer itself is neither a write nor a commit.
  have hquiet' : ∀ data, .object oid data ∉
      ledger t (.answered t (.get oid forUpdate) (.ok (.data d)) :: seen) := by
    intro data hin
    refine hquiet data ?_
    rw [ledger_append]
    refine List.mem_append_left _ ?_
    simpa [ledger, gathered, Event.gathered, Operation.writes] using hin
  have hsince : commits (.answered t (.get oid forUpdate) (.ok (.data d)) :: seen) = commits seen := rfl
  rw [htold, seenIn_append (hlog.trans hsplit) hquiet' hfirst, hsince, ← hsplit, ← hlog]

/-- As long as the transaction is open, the first answer is repeated unless it was not empty, not
written by the transaction, and somebody who has made the object has committed since. -/
theorem repeats_iff
    (hlog : ((Traffic.new shards Memory.empty).run actions).log =
      log₁ ++ .answered t (.get oid forUpdate) (.ok (.data d)) :: log₂ ++
        .answered t (.get oid forUpdate') result :: log₃)
    (hquiet : ∀ data, .object oid data ∉ ledger t log₂) (hdata : isInData result = true)
    (hopen : ((Traffic.new shards Memory.empty).run actions).store.register.isOpen t = true) :
    result = .ok (.data d) ↔ d = [] ∨ (∃ data, .object oid data ∈ ledger t log₁) ∨
      ∀ u ∈ commits log₂, ¬ Created ((Traffic.new shards Memory.empty).run actions).log u oid := by
  obtain ⟨seen, rest, rfl, hrest, htold⟩ := told_again hlog hquiet hdata
  have hlog₁ := hlog
  rw [List.append_assoc, List.cons_append] at hlog₁
  obtain ⟨mode, haccess⟩ := accessed_of_get hlog₁
  have hcreated : ∀ u ∈ commits (seen ++ rest), ∀ data,
      .object oid data ∈ ledger u ((Traffic.new shards Memory.empty).run actions).log →
      Created ((Traffic.new shards Memory.empty).run actions).log u oid ∧ data = some [] := by
    intro u hu data hwrite
    have hne : u ≠ t := by
      rintro rfl
      exact not_mem_commits_of_isOpen hlog hopen (mem_commits_append.mpr (Or.inr hu))
    rw [hlog] at hwrite
    obtain ⟨hmade, hempty⟩ := created_of_commits hlog haccess hopen hne hu hwrite
    rw [hlog]
    exact ⟨List.mem_append_left _ hmade, hempty⟩
  have hown : ∃ before, Write.objectAfter oid before (ledger t log₁) = some d := by
    have hfirst := seenIn_of_get hlog₁
    unfold seenIn at hfirst
    rw [Write.objectAfter_append] at hfirst
    exact ⟨_, hfirst⟩
  obtain ⟨⟨d', hd'⟩, hiff⟩ := objectAfter_eq_iff hown fun data hin => by
    obtain ⟨u, hu, hwrite⟩ := List.mem_flatMap.mp hin
    exact (hcreated u (mem_commits_append.mpr (Or.inl hu)) data hwrite).2
  -- The object was found, so the read is the last that has happened.
  obtain rfl : rest = [] := by
    refine hrest.resolve_left ?_
    rintro ⟨e, rfl⟩
    rw [hd'] at htold
    cases htold
  rw [htold, told_eq_data]
  refine hiff.trans (or_congr_right (or_congr_right ⟨fun hno u hu hmade => ?_, fun hno data hin => ?_⟩))
  · rw [List.append_nil] at hu
    exact hno _ (List.mem_flatMap.mpr ⟨u, hu, hmade.mem_ledger⟩)
  · obtain ⟨u, hu, hwrite⟩ := List.mem_flatMap.mp hin
    rw [← List.append_nil seen] at hu
    exact hno u hu (hcreated u hu data hwrite).1

end Again

/--
**Reads repeat as long as nobody commits the object anew.**  A transaction that gets an object again,
and has not written it in between, is told what those who have committed by the moment of the read
have made of the first answer, under its own writes.  As long as it is open, it is told something
else exactly if the first answer was not empty, not written by the transaction itself, and a
transaction that had made the object has committed in between.
-/
theorem get_again (shards : Nat) (actions : List StoreAction) {t : TxnId} {oid : ObjectId}
    {forUpdate forUpdate' : Bool} {d : Bytes} {result : Except StoreError Reply}
    {log₁ log₂ log₃ : List Event}
    (hlog : ((Traffic.new shards Memory.empty).run actions).log =
      log₁ ++ .answered t (.get oid forUpdate) (.ok (.data d)) :: log₂ ++
        .answered t (.get oid forUpdate') result :: log₃)
    (hquiet : ∀ data, .object oid data ∉ ledger t log₂) (hdata : isInData result = true) :
    ∃ actions' seen, actions' <+: actions ∧
      ((Traffic.new shards Memory.empty).run actions').log =
        log₁ ++ .answered t (.get oid forUpdate) (.ok (.data d)) :: log₂ ++
          [.answered t (.get oid forUpdate') result] ∧
      seen <+: log₂ ∧
      result = told oid (Write.objectAfter oid (some d)
        ((commits seen).flatMap (ledger · ((Traffic.new shards Memory.empty).run actions').log) ++
          ledger t log₁)) ∧
      (((Traffic.new shards Memory.empty).run actions').store.register.isOpen t = true →
        (result = .ok (.data d) ↔ d = [] ∨ (∃ data, .object oid data ∈ ledger t log₁) ∨
          ∀ u ∈ commits log₂,
            ¬ Created ((Traffic.new shards Memory.empty).run actions').log u oid)) := by
  obtain ⟨actions', a, hpre, -, hafter⟩ := exists_moment hlog
  obtain ⟨seen, rest, rfl, -, htold⟩ := told_again hafter hquiet hdata
  exact ⟨actions' ++ [a], seen, hpre, hafter, List.prefix_append seen rest, htold,
    repeats_iff hafter hquiet hdata⟩

/-- A transaction makes an object, another one writes it and commits.  A third one gets the object
before and after the commit of the first. -/
def lateCreation : List StoreAction :=
  [.begin ⟨1⟩ ⟨1, 0⟩ 9, .begin ⟨2⟩ ⟨2, 0⟩ 9, .begin ⟨3⟩ ⟨3, 0⟩ 9,
    .operate ⟨1⟩ .create, .proceed ⟨1⟩,
    .operate ⟨2⟩ (.set ⟨1⟩ [170]), .proceed ⟨2⟩, .proceed ⟨2⟩,
    .participate ⟨2⟩ .prepareAndCommit, .proceed ⟨2⟩, .proceed ⟨2⟩, .proceed ⟨2⟩, .proceed ⟨2⟩,
    .proceed ⟨2⟩, .operate ⟨3⟩ (.get ⟨1⟩ false), .proceed ⟨3⟩, .proceed ⟨3⟩,
    .participate ⟨1⟩ .prepareAndCommit, .proceed ⟨1⟩, .proceed ⟨1⟩, .proceed ⟨1⟩, .proceed ⟨1⟩,
    .proceed ⟨1⟩, .operate ⟨3⟩ (.get ⟨1⟩ false), .proceed ⟨3⟩, .proceed ⟨3⟩]

set_option maxRecDepth 2000 in
/-- The third transaction of that run writes nothing between its reads. -/
theorem log_lateCreation :
    ((Traffic.new 1 Memory.empty).run lateCreation).log =
      [.answered ⟨1⟩ .create (.ok (.object ⟨1⟩)), .accessed ⟨2⟩ (.object ⟨1⟩ .write),
        .answered ⟨2⟩ (.set ⟨1⟩ [170]) (.ok .done), .committed ⟨2⟩,
        .participated ⟨2⟩ .prepareAndCommit (.ok .done), .accessed ⟨3⟩ (.object ⟨1⟩ .read)] ++
        .answered ⟨3⟩ (.get ⟨1⟩ false) (.ok (.data [170])) ::
          [.committed ⟨1⟩, .participated ⟨1⟩ .prepareAndCommit (.ok .done),
            .accessed ⟨3⟩ (.object ⟨1⟩ .read)] ++
        .answered ⟨3⟩ (.get ⟨1⟩ false) (.ok (.data [])) :: [] :=
  rfl

/-- What it is told the second time is what the first one has committed. -/
theorem told_lateCreation :
    ∃ actions' seen, actions' <+: lateCreation ∧
      (.ok (.data []) : Except StoreError Reply) = told ⟨1⟩ (Write.objectAfter ⟨1⟩ (some [170])
        ((commits seen).flatMap (ledger · ((Traffic.new 1 Memory.empty).run actions').log))) := by
  obtain ⟨actions', seen, hpre, -, -, htold, -⟩ :=
    get_again 1 lateCreation log_lateCreation (fun _ => List.not_mem_nil) rfl
  exact ⟨actions', seen, hpre, by simpa [ledger, gathered, Event.gathered] using htold⟩

set_option maxRecDepth 2000 in
/-- **Reads do not always repeat**, even of a transaction that stays open. -/
theorem exists_get_differs :
    ∃ (shards : Nat) (actions : List StoreAction) (t : TxnId) (oid : ObjectId) (d d' : Bytes)
      (log₁ log₂ log₃ : List Event),
      ((Traffic.new shards Memory.empty).run actions).log =
        log₁ ++ .answered t (.get oid false) (.ok (.data d)) :: log₂ ++
          .answered t (.get oid false) (.ok (.data d')) :: log₃ ∧
      (∀ data, .object oid data ∉ ledger t log₂) ∧
      ((Traffic.new shards Memory.empty).run actions).store.register.isOpen t = true ∧ d' ≠ d :=
  ⟨1, lateCreation, ⟨3⟩, ⟨1⟩, [170], [], _, _, [], log_lateCreation, fun _ => List.not_mem_nil, rfl,
    by decide⟩

end Traffic

end ObjectStore
