/-
What failures say of their transactions, where they occur.

A failure may say that its transaction is aborted, and for which cause, or that it is not active.
It is put together where the failure occurs, and fits the status at that moment: it will be true once
the transaction has learnt of it, if nothing else happens to the transaction before.  Each step of a
call is looked at by itself here.
-/
import ObjectStore.Proofs.Store.Participation
import ObjectStore.Proofs.Store.Plan

namespace ObjectStore

/-- What a failure of a call on the transaction of a number says of its status. -/
def StoreError.IsTrueOf (id : TxnId) (t : Txn) : StoreError → Prop
  | .aborted txn cause => txn = id ∧ t.state = .aborted ∧ t.cause = some cause
  | .notActive txn cause => txn = id ∧ t.state ≠ .active ∧ t.cause = cause
  | _ => True

theorem StoreError.isTrueOf_of_txn?_eq_none {e : StoreError} (h : e.txn? = none) (id : TxnId)
    (t : Txn) : e.IsTrueOf id t := by
  cases e with
  | aborted => cases h
  | notActive => cases h
  | _ => trivial

/-! ### Statuses and failures -/

namespace Txn

variable {t t' : Txn} {now : Nat} {e : StoreError}

/-- The status after the transaction has learnt of a failure. -/
def noted (t : Txn) : StoreError → Txn
  | .aborted _ cause => (t.abort cause).2
  | _ => t

theorem noted_of_txn?_eq_none (h : e.txn? = none) : t.noted e = t := by
  cases e <;> first | rfl | cases h

theorem noted_of_not_isOpen (h : t.isOpen = false) : t.noted e = t := by
  cases e with
  | aborted txn cause =>
      rcases t.abort_cases cause with ⟨hsame, -⟩ | ⟨hopen, -⟩
      · exact hsame
      · rw [h] at hopen
        cases hopen
  | _ => rfl

/-- Nothing happens to a transaction that learns of what is true of it. -/
theorem noted_of_isTrueOf {id : TxnId} (h : e.IsTrueOf id t) : t.noted e = t := by
  cases e with
  | aborted txn cause => exact noted_of_not_isOpen (by simp [isOpen, h.2.1])
  | _ => rfl

theorem isTrueOf_notActive (h : t.state ≠ .active) :
    (t.notActive t.cause).IsTrueOf t.id t := ⟨rfl, h, rfl⟩

theorem isTrueOf_meetDeadline (h : t.meetDeadline now = (.error e, t')) : e.IsTrueOf t.id t' := by
  rcases t.meetDeadline_cases now with hok | hlate
  · cases hok.symm.trans h
  · cases hlate.symm.trans h
    exact ⟨rfl, rfl, rfl⟩

/-- An operation that comes too late is told how the transaction stands, -/
theorem isTrueOf_checkActive (hregular : t.Regular) (h : t.checkActive now = (.error e, t')) :
    e.IsTrueOf t.id t' := by
  have hclosed : t.state = .prepared ∨ t.state = .committed →
      (t.notActive none).IsTrueOf t.id t := by
    intro hstate
    refine ⟨rfl, ?_, hregular.cause ?_⟩ <;> rcases hstate with hstate | hstate <;> simp [hstate]
  unfold checkActive at h
  split at h
  · rename_i haborted
    cases h
    exact isTrueOf_notActive (by simp [haborted])
  · rename_i hprepared
    cases h
    exact hclosed (Or.inl hprepared)
  · rename_i hcommitted
    cases h
    exact hclosed (Or.inr hcommitted)
  · rename_i hactive
    have hdone : ¬t.done = true := by
      simp [(hregular.of_isOpen (isOpen_of_active hactive)).2]
    rw [if_neg hdone] at h
    exact isTrueOf_meetDeadline h

theorem isTrueOf_beginPrepare (h : t.beginPrepare now = (.error e, t')) : e.IsTrueOf t.id t' := by
  unfold beginPrepare at h
  split at h
  · cases h
    trivial
  · split at h
    · rename_i haborted
      cases h
      exact isTrueOf_notActive (by simp [haborted])
    · cases h
      trivial
    · cases h
      trivial
    · rcases hmet : t.meetDeadline now with ⟨_ | _, t₁⟩
      · rw [hmet] at h
        cases h
        exact isTrueOf_meetDeadline hmet
      · rw [hmet] at h
        cases h

theorem isTrueOf_checkPrepared (h : t.checkPrepared = .error e) : e.IsTrueOf t.id t := by
  unfold checkPrepared at h
  split at h
  · cases h
    trivial
  · split at h
    · cases h
    · rename_i haborted
      cases h
      exact isTrueOf_notActive (by simp [haborted])
    · cases h
      trivial
    · cases h
      trivial

theorem isTrueOf_beginParticipantAbort (h : t.beginParticipantAbort = (.error e, t')) :
    e.IsTrueOf t.id t' := by
  unfold beginParticipantAbort at h
  split at h
  · cases h
    trivial
  · split at h <;> cases h
    trivial

/-- and so is a participant call. -/
theorem isTrueOf_look {call : ParticipantCall} (h : call.look now t = (.error e, t')) :
    e.IsTrueOf t.id t' := by
  cases call with
  | prepare => exact isTrueOf_beginPrepare h
  | prepareAndCommit => exact isTrueOf_beginPrepare h
  | commit =>
      obtain ⟨hcheck, rfl⟩ := Prod.mk.inj h
      exact isTrueOf_checkPrepared hcheck
  | abort => exact isTrueOf_beginParticipantAbort h

end Txn

theorem Register.find_noteFailure_self (r : Register) (id : TxnId) (e : StoreError) :
    (r.noteFailure id e).find id = (r.find id).noted e := by
  cases e with
  | aborted txn cause => exact find_update_self (f := (·.abort cause))
  | _ => rfl

/-! ### Reports -/

/-- Whether the answer to a report will fit the status of the transaction. -/
def AccessTurn.Fits (id : TxnId) (t : Txn) : AccessTurn → Prop
  | .refused e => e.IsTrueOf id (t.noted e)
  | _ => True

/-- Nobody's own report changes its status, and the answer fits it. -/
theorem LockingReporter.fits_report {K : Type} [DecidableEq K] [Hashable K] [Labelled K]
    {now : Nat} {t : TxnId} {key : K} {mode : LockMode} {r r' : Register}
    {l l' : LockingReporter K} {turn : AccessTurn} (hregular : (r.find t).Regular)
    (h : l.report now t key mode r = (turn, r', l')) :
    r'.find t = r.find t ∧ turn.Fits t (r.find t) := by
  unfold LockingReporter.report at h
  rcases hturn : l.table.turn now (r.find t).deadline t key mode r with ⟨answer, r₁, table⟩
  have hself := Register.find_turn_self hturn
  rw [hturn] at h
  cases LockTable.turn_outcome hturn with
  | inactive hinactive =>
      have hstate : (r.find t).state ≠ .active := Register.stateOf_ne_active hinactive
      cases h
      refine ⟨rfl, ?_⟩
      simp only [LockingReporter.failure]
      cases hcause : (r.find t).cause with
      | none => exact ⟨rfl, hstate, hcause⟩
      | some cause =>
          have haborted : (r.find t).state = .aborted := by
            by_contra hne
            rw [hregular.cause hne] at hcause
            cases hcause
          simp only [AccessTurn.Fits]
          rw [Txn.noted_of_not_isOpen (Register.isOpen_of_aborted haborted)]
          exact ⟨rfl, haborted, hcause⟩
  | granted =>
      cases h
      exact ⟨hself, trivial⟩
  | timedOut hactive =>
      cases h
      refine ⟨hself, ?_⟩
      have hstate : (r.find t).state = .active := Txn.isActive_iff.mp hactive
      rcases (r.find t).abort_cases (.conflict l.source _ _) with ⟨-, hclosed⟩ | ⟨-, haborted⟩
      · rw [Txn.isOpen_of_active hstate] at hclosed
        cases hclosed
      · simp only [AccessTurn.Fits, LockingReporter.failure, Txn.noted]
        rw [haborted]
        exact ⟨rfl, rfl, rfl⟩
  | waiting =>
      cases h
      exact ⟨hself, trivial⟩

theorem Store.fits_report {s s' : LockingStore Memory} {t : TxnId} {access : Access}
    {turn : AccessTurn} (hregular : (s.register.find t).Regular)
    (h : s.report t access = (turn, s')) :
    s'.register.find t = s.register.find t ∧ turn.Fits t (s.register.find t) := by
  cases access with
  | object oid mode =>
      rcases hreport : s.objects.report s.now t oid mode s.register with ⟨turn', r', l'⟩
      have hfits := LockingReporter.fits_report hregular hreport
      simp only [Store.report, Reporter.report, hreport] at h
      cases h
      exact hfits
  | name key mode =>
      rcases hreport : s.names.report s.now t key mode s.register with ⟨turn', r', l'⟩
      have hfits := LockingReporter.fits_report hregular hreport
      simp only [Store.report, Reporter.report, hreport] at h
      cases h
      exact hfits

/-! ### Plans -/

/-- A failure that has been decided on speaks of no transaction. -/
def Plan.Discreet (plan : Plan) : Prop :=
  ∀ e, plan.outcome? = some (.error e) → e.txn? = none

/-- The operation has decided on no failure that speaks of a transaction, and has answered none. -/
def Stage.Discreet : Stage → Prop
  | .report _ plan => plan.Discreet
  | .waiting _ _ plan => plan.Discreet
  | .act plan => plan.Discreet
  | .failing e => e.txn? = none
  | .ended result => ∀ e, result ≠ .error e

theorem Stage.discreet_ofResult {result : Except StoreError Reply}
    (h : ∀ e, result = .error e → e.txn? = none) : (ofResult result).Discreet := by
  cases result with
  | error e => exact h e rfl
  | ok reply => exact fun _ hc => by cases hc

theorem Scan.txn?_of_answer {scan : Scan} {next : Option Name} {e : StoreError}
    (h : scan.answer next = .error e) : e.txn? = none := by
  cases scan with
  | removal name wasBound =>
      cases wasBound <;> cases h
      rfl
  | next after => cases h

theorem Plan.discreet_confirm (scan : Scan) (locked : Option Name) :
    (Plan.confirm scan locked).Discreet := by
  intro e he
  cases scan with
  | removal name wasBound => exact Scan.txn?_of_answer (Option.some.inj he)
  | next after => cases he

theorem Store.discreet_callThen {α : Type} {s : LockingStore Memory} {t : TxnId}
    {c : BackendCall α} {next : α → Stage} (hnext : ∀ a, (next a).Discreet) :
    (s.callThen t c next).1.Discreet := by
  unfold callThen Store.call
  simp only [Backend.perform]
  rcases hperform : Memory.perform c t s.backend with ⟨e | a, m⟩
  · exact Memory.txn?_of_perform hperform
  · exact hnext a

/-- Carrying a plan out decides on no other failures. -/
theorem Store.discreet_act {s : LockingStore Memory} {t : TxnId} {plan : Plan}
    (hplan : plan.Discreet) : (s.act t plan).1.Discreet := by
  have hended : ∀ reply : Reply, (Stage.ended (.ok reply)).Discreet := fun _ _ hc => by cases hc
  cases plan with
  | setMany unreported items =>
      cases unreported with
      | nil => exact discreet_callThen fun _ => hended .done
      | cons oid rest => exact fun _ he => by cases he
  | getBinding name =>
      refine discreet_callThen fun binding => ?_
      cases binding with
      | bound oid next => exact hended (.object oid)
      | unbound next =>
          intro e he
          cases he
          rfl
  | setBinding name oid =>
      refine discreet_callThen fun binding => ?_
      cases binding with
      | bound _ next => exact hended .done
      | unbound next => exact fun _ he => by cases he
  | removeBinding name => exact discreet_callThen fun before => Plan.discreet_confirm _ _
  | beginScan after => exact discreet_callThen fun next => Plan.discreet_confirm _ _
  | confirm scan locked =>
      refine discreet_callThen fun answer => ?_
      cases NameRound.ofAnswer locked answer with
      | settled next => exact Stage.discreet_ofResult fun _ => Scan.txn?_of_answer
      | again next => exact Plan.discreet_confirm scan next
  | nextObject after =>
      refine discreet_callThen fun next => ?_
      cases next with
      | none => exact hended (.nextObject none)
      | some oid => exact fun _ he => by cases he
  | answer result =>
      refine Stage.discreet_ofResult fun e he => hplan e ?_
      rw [he]
      rfl
  | _ => exact discreet_callThen fun _ => hended _

/-! ### Operations -/

/-- A failure will be true of a transaction of status `t` once it has learnt of it. -/
def Stage.Truthful (id : TxnId) (t : Txn) : Stage → Prop
  | .failing e => e.IsTrueOf id (t.noted e)
  | stage => stage.Discreet

namespace Stage

variable {s s' : LockingStore Memory} {id : TxnId} {stage stage' : Stage}

theorem Discreet.truthful (h : stage.Discreet) (id : TxnId) (t : Txn) : stage.Truthful id t := by
  cases stage with
  | failing e => exact StoreError.isTrueOf_of_txn?_eq_none h id _
  | _ => exact h

theorem Truthful.discreet {t : Txn} (h : stage.Truthful id t) (hgoes : ∀ e, stage ≠ .failing e) :
    stage.Discreet := by
  cases stage with
  | failing e => exact absurd rfl (hgoes e)
  | _ => exact h

/-- An operation begins truthfully, and its transaction stays as it is unless the failure says
otherwise. -/
theorem truthful_start {op : Operation} (hregular : s.register.Regular)
    (h : s.start id op = (stage', s')) :
    stage'.Truthful id (s'.register.find id) ∧
      (s'.register.find id = s.register.find id ∨ ∃ e, stage' = .failing e ∧ e.txn? ≠ none) := by
  unfold Store.start at h
  split at h
  · rename_i e hrefusal
    have htxn : e.txn? = none := by
      unfold Operation.refusal? at hrefusal
      split at hrefusal <;> first | (split at hrefusal <;> cases hrefusal <;> rfl) | cases hrefusal
    cases h
    exact ⟨StoreError.isTrueOf_of_txn?_eq_none htxn id _, Or.inl rfl⟩
  · have hfind : (s.register.update id (·.checkActive s.now)).2.find id =
        ((s.register.find id).checkActive s.now).2 := Register.find_update_self
    simp only [Store.checkActive, Store.updateTxn] at h
    rcases hcheck : (s.register.find id).checkActive s.now with ⟨e | _, t'⟩
    · have hanswer : (s.register.update id (·.checkActive s.now)).1 = .error e :=
        congrArg Prod.fst hcheck
      have htrue := Txn.isTrueOf_checkActive (hregular.txn id) hcheck
      rw [hregular.id id] at htrue
      rw [hanswer] at h
      cases h
      rw [hfind, hcheck]
      rcases Txn.checkActive_cases s.now (s.register.find id) with
        ⟨hok, -⟩ | ⟨cause, herror⟩ | ⟨hlate, -⟩
      · cases hcheck.symm.trans hok
      · cases hcheck.symm.trans herror
        exact ⟨htrue, Or.inl rfl⟩
      · cases hcheck.symm.trans hlate
        exact ⟨⟨htrue.1, rfl, rfl⟩, Or.inr ⟨_, rfl, by simp [StoreError.txn?]⟩⟩
    · have hanswer : (s.register.update id (·.checkActive s.now)).1 = .ok () :=
        congrArg Prod.fst hcheck
      rw [hanswer] at h
      cases h
      have hfirst : op.firstStage.Discreet := by
        cases op <;> exact fun _ he => by cases he
      refine ⟨hfirst.truthful id _, Or.inl ?_⟩
      rw [hfind, hcheck]
      rcases Txn.checkActive_cases s.now (s.register.find id) with
        ⟨hok, -⟩ | ⟨cause, herror⟩ | ⟨hlate, -⟩
      · cases hcheck.symm.trans hok
        rfl
      · cases hcheck.symm.trans herror
      · cases hcheck.symm.trans hlate

/-- **A step of an operation keeps it truthful**, and leaves its transaction as it is. -/
theorem truthful_step (hregular : s.register.Regular) (hdiscreet : stage.Discreet)
    (hgoes : ∀ e, stage ≠ .failing e) (h : s.step id stage = (stage', s')) :
    s'.register.find id = s.register.find id ∧ stage'.Truthful id (s'.register.find id) := by
  cases stage with
  | report access plan =>
      rcases hreport : s.report id access with ⟨turn, s₁⟩
      obtain ⟨hself, hfits⟩ := Store.fits_report (hregular.txn id) hreport
      simp only [Store.step, hreport] at h
      cases turn with
      | refused e =>
          cases h
          rw [hself]
          exact ⟨rfl, hfits⟩
      | _ =>
          cases h
          exact ⟨hself, hdiscreet⟩
  | waiting signal access plan =>
      simp only [Store.step] at h
      split at h <;> cases h <;> exact ⟨rfl, hdiscreet⟩
  | act plan =>
      have hact : s.act id plan = (stage', s') := h
      obtain ⟨backend, hbackend⟩ := s.act_backend id plan
      have hdiscreet' := Store.discreet_act (s := s) (t := id) hdiscreet
      rw [hact] at hbackend hdiscreet'
      refine ⟨?_, hdiscreet'.truthful id _⟩
      rw [show s' = { s with backend } from hbackend]
  | failing e => exact absurd rfl (hgoes e)
  | ended result =>
      cases h
      exact ⟨rfl, hdiscreet⟩

end Stage

/-! ### Participant calls -/

/-- What a participant call has found or has failed with is true of a transaction of status `t`. -/
def ParticipantStage.Truthful (id : TxnId) (t : Txn) : ParticipantStage → Prop
  | .enter _ => True
  | .backend call => call ≠ .abort → t.state = .prepared
  | .committed _ => t.state = .prepared
  | .releaseObjects result => ∀ e, result = .error e → e.txn? = none
  | .releaseNames result => ∀ e, result = .error e → e.txn? = none
  | .failing e => e.IsTrueOf id t
  | .ended result => ∀ e, result = .error e → e.IsTrueOf id t

namespace ParticipantStage

variable {s s' : LockingStore Memory} {id : TxnId} {stage stage' : ParticipantStage} {t t' : Txn}

/-- While a transaction participates others abort it only where it is active, and then no call has
found or failed with anything. -/
theorem Truthful.aborted (h : stage.Truthful id t) (hactive : t.state = .active) :
    stage.Truthful id t' := by
  have htrue : ∀ e : StoreError, e.IsTrueOf id t → e.IsTrueOf id t' := by
    intro e he
    cases e with
    | aborted txn cause =>
        have haborted := he.2.1
        rw [hactive] at haborted
        cases haborted
    | notActive txn cause => exact absurd hactive he.2.1
    | _ => trivial
  cases stage with
  | backend call =>
      intro hcall
      have hprepared := h hcall
      rw [hactive] at hprepared
      cases hprepared
  | committed reply =>
      rw [Truthful, hactive] at h
      cases h
  | failing e => exact htrue e h
  | ended result => exact fun e he => htrue e (h e he)
  | _ => exact h

/-- **A step of a participant call keeps it truthful**, and moves the statuses along their course. -/
theorem truthful_step (hregular : s.register.Regular)
    (htruthful : stage.Truthful id (s.register.find id))
    (h : s.participantStep id stage = (stage', s')) :
    s.register.Course s'.register ∧ stage'.Truthful id (s'.register.find id) := by
  cases stage with
  | enter call =>
      obtain ⟨register, henter, hbecomes⟩ := s.enter_eq id call
      have hcourse := hbecomes.course hregular (Txn.course_look (hregular.txn id) call s.now)
      simp only [Store.participantStep, henter] at h
      cases hlook : (call.look s.now (s.register.find id)).1 with
      | ok _ =>
          rw [hlook] at h
          cases h
          refine ⟨hcourse, fun hcall => ?_⟩
          rw [hbecomes.self]
          exact Txn.state_of_look hlook hcall
      | error e =>
          rw [hlook] at h
          cases h
          refine ⟨hcourse, ?_⟩
          have htrue := Txn.isTrueOf_look (Prod.ext hlook rfl)
          rw [hregular.id id] at htrue
          rw [hbecomes.self]
          exact htrue
  | backend call =>
      have hcalled : s.callBackend id call = (stage', s') := h
      by_cases hcall : call = .abort
      · subst hcall
        simp only [Store.callBackend, Store.call, Backend.perform] at hcalled
        rcases hperform : Memory.perform .abort id s.backend with ⟨e' | _, m⟩
        · rw [hperform] at hcalled
          cases hcalled
          refine ⟨.refl hregular, fun e he => ?_⟩
          cases he
          exact Memory.txn?_of_perform hperform
        · rw [hperform] at hcalled
          cases hcalled
          exact ⟨.refl hregular, fun _ he => by cases he⟩
      · obtain ⟨backend, ⟨e, he, hends⟩ | ⟨-, hends⟩ | hends⟩ := s.callBackend_cases id hcall
        · cases hcalled.symm.trans hends
          exact ⟨.refl hregular, StoreError.isTrueOf_of_txn?_eq_none he id _⟩
        · cases hcalled.symm.trans hends
          exact ⟨.refl hregular, fun _ hc => by cases hc⟩
        · cases hcalled.symm.trans hends
          exact ⟨.refl hregular, htruthful hcall⟩
  | committed reply =>
      cases h
      refine ⟨Register.course_update (f := fun txn => ((), txn.completeCommit)) hregular ?_,
        fun _ hc => by cases hc⟩
      exact Txn.course_completeCommit (hregular.txn id) (Or.inl htruthful)
  | releaseObjects result =>
      cases h
      exact ⟨.refl hregular, htruthful⟩
  | releaseNames result =>
      cases h
      refine ⟨.refl hregular, ?_⟩
      cases result with
      | ok reply => exact fun _ hc => by cases hc
      | error e => exact StoreError.isTrueOf_of_txn?_eq_none (htruthful e rfl) id _
  | failing e =>
      cases h
      refine ⟨Register.course_noteFailure hregular id e, fun e' he' => ?_⟩
      cases he'
      rw [show (s.noteFailure id e).register = s.register.noteFailure id e from rfl,
        Register.find_noteFailure_self, Txn.noted_of_isTrueOf htruthful]
      exact htruthful
  | ended result =>
      cases h
      exact ⟨.refl hregular, htruthful⟩

end ParticipantStage

end ObjectStore
