/-
Locks are kept for as long as a transaction is open.

Once an access was allowed its transaction holds the key until it is committed or aborted: nobody
loses an entry but by its own release or by giving up, and to give up is to be aborted.

`Guarded` says this of one table, together with what it rests on: writers are alone, and a queued
entry stands for the call that its transaction has under way.  The latter is why nobody oversteps
here, although a lock table alone allows it: the call that asks to read a key is not the call that
is queued to write it, and there is only one.
-/
import ObjectStore.Backend.Memory
import ObjectStore.Proofs.Locking.Exclusion
import ObjectStore.Proofs.Store.Step

namespace ObjectStore

open LockEntry (Handled Holds Turned)

/-- The access that an operation is about to report, or waits for. -/
def Stage.access? : Stage → Option Access
  | .report access _ => some access
  | .waiting _ access _ => some access
  | _ => none

/-- Whether two transactions cannot access the same thing in these modes. -/
def Access.conflictsWith : Access → Access → Bool
  | .object oid mode, .object oid' mode' => decide (oid = oid') && mode.conflictsWith mode'
  | .name key mode, .name key' mode' => decide (key = key') && mode.conflictsWith mode'
  | _, _ => false

theorem LockEntry.Holds.mem_holders {K : Type} [Hashable K] [DecidableEq K]
    {table : LockTable K TxnId} {t : TxnId} {key : K} {mode : LockMode}
    (h : Holds t mode (table.requests key)) :
    ∃ held, (t, held) ∈ table.holders key ∧ held.max mode = held := by
  obtain ⟨e, he, howner, hgranted, hmode⟩ := h
  exact ⟨e.mode, LockTable.mem_holders.mpr ⟨e, he, hgranted, howner, rfl⟩, hmode⟩

/-! ### One table -/

section Table

variable {K : Type} [Hashable K] [DecidableEq K]

/-- What is true of a table of a store.  `access` makes an access of a key and a mode. -/
structure Guarded (access : K → LockMode → Access) (table : LockTable K TxnId)
    (register : Register) (calls : FinMap TxnId Call) (log : List Event) : Prop where
  distinct : table.Distinct
  exclusive : ∀ key, LockEntry.Exclusive (table.requests key)
  /-- A queued entry is that of the call its owner has under way. -/
  queued : ∀ key, ∀ e ∈ table.requests key, e.granted = false →
    ∃ op stage, calls.get? e.owner = some (.operation op stage) ∧
      stage.access? = some (access key e.mode)
  /-- Whoever is open holds what it was allowed to access. -/
  held : ∀ t key mode, .accessed t (access key mode) ∈ log → register.isOpen t = true →
    Holds t mode (table.requests key)

namespace Guarded

variable {access : K → LockMode → Access} {table table' : LockTable K TxnId}
variable {register register' : Register} {calls calls' : FinMap TxnId Call} {log log' : List Event}

theorem ofShards (count : Nat) :
    Guarded access (.ofShards count : LockTable K TxnId) register calls [] where
  distinct := LockTable.distinct_ofShards count
  exclusive := (LockTable.exclusive_iff (LockTable.distinct_ofShards count)).mp
    (LockTable.exclusive_ofShards count)
  queued := by
    intro key e he
    unfold LockTable.requests at he
    rw [LockTable.entries_ofShards] at he
    exact absurd he (by simp)
  held := fun _ _ _ h => absurd h (by simp)

/-- A table that stays as it is remains guarded if nobody is opened, no call on it comes to another
access, and no access to it is allowed. -/
theorem frame (h : Guarded access table register calls log)
    (hopen : ∀ t key mode, .accessed t (access key mode) ∈ log → register'.isOpen t = true →
      register.isOpen t = true)
    (hcalls : ∀ t op stage key mode, calls.get? t = some (.operation op stage) →
      stage.access? = some (access key mode) →
      ∃ op' stage', calls'.get? t = some (.operation op' stage') ∧
        stage'.access? = some (access key mode))
    (hlog : ∀ t key mode, .accessed t (access key mode) ∈ log' →
      .accessed t (access key mode) ∈ log) :
    Guarded access table register' calls' log' where
  distinct := h.distinct
  exclusive := h.exclusive
  queued := by
    intro key e he hqueued
    obtain ⟨op, stage, hcall, haccess⟩ := h.queued key e he hqueued
    exact hcalls e.owner op stage key e.mode hcall haccess
  held := fun t key mode hin hop =>
    h.held t key mode (hlog t key mode hin) (hopen t key mode (hlog t key mode hin) hop)

theorem releaseAll (h : Guarded access table register calls log) {t : TxnId}
    (hclosed : register.isOpen t = false) :
    Guarded access (table.releaseAll t) register calls log where
  distinct := h.distinct.releaseAll
  exclusive := by
    intro key e he e' he'
    rw [LockTable.requests_releaseAll] at he he'
    exact h.exclusive key e (List.mem_of_mem_eraseP he) e' (List.mem_of_mem_eraseP he')
  queued := by
    intro key e he
    rw [LockTable.requests_releaseAll] at he
    exact h.queued key e (List.mem_of_mem_eraseP he)
  held := by
    intro u key mode hin hopen
    obtain ⟨e, he, howner, hholds⟩ := h.held u key mode hin hopen
    have hne : e.owner ≠ t := by
      rintro rfl
      rw [howner, hopen] at hclosed
      exact absurd hclosed (by simp)
    rw [LockTable.requests_releaseAll]
    exact ⟨e, (h.distinct key).mem_eraseP.mpr ⟨he, hne⟩, howner, hholds⟩

/-- What a locker holds it holds after a turn of its call. -/
theorem holds_of_turned {gone : TxnId → Prop} {t : TxnId} {mode mode' : LockMode}
    {es es' : List (LockEntry TxnId)} {turn : LockTurn TxnId} (hd : LockEntry.Distinct es)
    (hturned : Turned gone t mode es turn es') (hheld : Holds t mode' es) : Holds t mode' es' := by
  obtain ⟨e, he, howner, hgranted, hmode⟩ := hheld
  by_cases hturn : turn = .granted
  · obtain ⟨own, hown, hownowner, howngranted, -⟩ := hturned.granted hturn
    refine ⟨own, hown, hownowner, howngranted, ?_⟩
    cases hturned.gain own hown hownowner howngranted with
    | held hold => rwa [hd.eq_of_owner hold he (hownowner.trans howner.symm)]
    | raised old hold holdowner hraised =>
        rw [hraised, hd.eq_of_owner hold he (holdowner.trans howner.symm)]
        revert hmode
        cases e.mode <;> cases mode <;> cases mode' <;> simp [LockMode.max]
    | new hnone => exact absurd howner (hnone e he)
  · exact ⟨e, hturned.kept_own hturn e he howner hgranted, howner, hgranted, hmode⟩

variable {t : TxnId} {op : Operation} {key : K} {mode : LockMode} {plan : Plan} {stage' : Stage}
variable {answer : LockTurn TxnId} {now deadline : Nat}

/-- The only entry that a transaction can have queued is that of the access it reports. -/
theorem queued_of_report (hinj : ∀ k m k' m', access k m = access k' m' → k = k' ∧ m = m')
    (h : Guarded access table register calls log)
    (hcall : calls.get? t = some (.operation op (.report (access key mode) plan))) {key' : K}
    {e : LockEntry TxnId} (he : e ∈ table.requests key') (howner : e.owner = t)
    (hqueued : e.granted = false) : key' = key ∧ e.mode = mode := by
  obtain ⟨op', stage, hcall', haccess⟩ := h.queued key' e he hqueued
  rw [howner, hcall] at hcall'
  cases hcall'
  obtain ⟨hkey, hmode⟩ := hinj _ _ _ _ (Option.some.inj haccess)
  exact ⟨hkey.symm, hmode.symm⟩

/-- After a turn whoever is open holds what it held, and what it has just been given. -/
theorem held_of_turn (hinj : ∀ k m k' m', access k m = access k' m' → k = k' ∧ m = m')
    (h : Guarded access table register calls log)
    (hturn : table.turn now deadline t key mode register = (answer, register', table'))
    (hstage : Reported t (register.stateOf t) (access key mode) plan answer stage') {u : TxnId}
    {key' : K} {mode' : LockMode}
    (hin : .accessed u (access key' mode') ∈
      log ++ Event.ofStep t op (.report (access key mode) plan) stage')
    (hopen : register'.isOpen u = true) : Holds u mode' (table'.requests key') := by
  have hspec := LockTable.turn_spec Register.final_aborted h.distinct hturn
  rcases List.mem_append.mp hin with hold | hnew
  · have hheld := h.held u key' mode' hold ((Register.wounded_turn hturn).isOpen_of_isOpen hopen)
    by_cases hkey : key = key'
    · subst hkey
      by_cases hu : u = t
      · subst hu
        exact holds_of_turned (h.distinct key) hspec hheld
      · obtain ⟨e, he, howner, hholds⟩ := hheld
        have hne : e.owner ≠ t := fun hc => hu (howner.symm.trans hc)
        refine ⟨e, (hspec.kept e he hne).resolve_right ?_, howner, hholds⟩
        rintro ⟨-, haborted⟩
        rw [howner] at haborted
        rw [Register.isOpen_iff, haborted] at hopen
        exact absurd hopen (by simp)
    · rw [LockTable.requests_turn_of_ne hturn hkey]
      exact hheld
  · cases hstage with
    | allowed =>
        obtain ⟨rfl, haccess⟩ : u = t ∧ access key' mode' = access key mode := by
          simpa [Event.ofStep] using hnew
        obtain ⟨rfl, rfl⟩ := hinj _ _ _ _ haccess
        exact hspec.granted rfl
    | waiting signal => exact absurd hnew (by simp [Event.ofStep])
    | timedOut holder cause => exact absurd hnew (by simp [Event.ofStep])
    | late e => exact absurd hnew (by simp [Event.ofStep])

theorem turn (hinj : ∀ k m k' m', access k m = access k' m' → k = k' ∧ m = m')
    (h : Guarded access table register calls log)
    (hcall : calls.get? t = some (.operation op (.report (access key mode) plan)))
    (hturn : table.turn now deadline t key mode register = (answer, register', table'))
    (hstage : Reported t (register.stateOf t) (access key mode) plan answer stage') :
    Guarded access table' register' (calls.change t (Call.ofStage op stage'))
      (log ++ Event.ofStep t op (.report (access key mode) plan) stage') := by
  have hspec := LockTable.turn_spec Register.final_aborted h.distinct hturn
  have hrequests : ∀ key', key ≠ key' → table'.requests key' = table.requests key' :=
    fun key' hkey => LockTable.requests_turn_of_ne hturn hkey
  have hothers : ∀ u, t ≠ u → (calls.change t (Call.ofStage op stage')).get? u = calls.get? u :=
    fun u hu => by rw [FinMap.get?_change, if_neg hu]
  refine ⟨h.distinct.turn hturn, ?_, ?_, fun u key' mode' => h.held_of_turn hinj hturn hstage⟩
  · intro key'
    by_cases hkey : key = key'
    · rw [← hkey, hspec.exclusive_iff (h.distinct key) (h.exclusive key)]
      -- An entry queued to write is not one of an access to read.
      rintro ⟨hread, ⟨old, hold, howner, hqueued, hwrite⟩, -⟩
      rw [(h.queued_of_report hinj hcall hold howner hqueued).2, hread] at hwrite
      exact absurd hwrite (by simp)
    · rw [hrequests key' hkey]
      exact h.exclusive key'
  · intro key' e he hqueued
    by_cases hkey : key = key'
    · subst hkey
      by_cases howner : e.owner = t
      · obtain ⟨⟨signal, rfl⟩, hmode⟩ := hspec.queued e he howner hqueued
        have hsame : e.mode = mode :=
          hmode.elim (fun hin => (h.queued_of_report hinj hcall hin howner hqueued).2) id
        cases hstage with
        | waiting =>
            refine ⟨op, .waiting signal (access key mode) plan, ?_, by rw [hsame]; rfl⟩
            rw [howner, FinMap.get?_change_self]
            rfl
      · rw [hothers e.owner (Ne.symm howner)]
        exact h.queued key e (hspec.others e he howner) hqueued
    · rw [hrequests key' hkey] at he
      have hne : t ≠ e.owner := fun howner =>
        hkey (h.queued_of_report hinj hcall he howner.symm hqueued).1.symm
      rw [hothers e.owner hne]
      exact h.queued key' e he hqueued

theorem beside (h : Guarded access table register calls log) {reported : Access}
    (hother : ∀ k m, reported ≠ access k m)
    (hcall : calls.get? t = some (.operation op (.report reported plan)))
    (hwounded : register.Wounded register') :
    Guarded access table register' (calls.change t (Call.ofStage op stage'))
      (log ++ Event.ofStep t op (.report reported plan) stage') := by
  refine h.frame (fun _ _ _ _ => hwounded.isOpen_of_isOpen) ?_ ?_
  · intro u op' stage key' mode' hcall' haccess
    by_cases hu : t = u
    · rw [← hu, hcall] at hcall'
      cases hcall'
      exact absurd (Option.some.inj haccess) (hother key' mode')
    · exact ⟨op', stage, by rw [FinMap.get?_change, if_neg hu, hcall'], haccess⟩
  · intro u key' mode' hin
    refine (List.mem_append.mp hin).resolve_right fun hnew => ?_
    obtain ⟨-, ⟨_, hstage⟩, -⟩ := Event.accessed_mem_ofStep hnew
    cases hstage
    exact hother key' mode' rfl

theorem agrees (h : Guarded access table register calls log) {u : TxnId} (hne : t ≠ u)
    {mode' : LockMode} (haccess : .accessed t (access key mode) ∈ log)
    (hopen : register.isOpen t = true) (haccess' : .accessed u (access key mode') ∈ log)
    (hopen' : register.isOpen u = true) : mode.conflictsWith mode' = false := by
  obtain ⟨e, he, rfl, hgranted, hmode⟩ := h.held t key mode haccess hopen
  obtain ⟨e', he', rfl, hgranted', hmode'⟩ := h.held u key mode' haccess' hopen'
  have hno := h.exclusive key e he e' he' hgranted hgranted' hne
  exact LockMode.conflictsWith_of_max hmode hmode' hno

end Guarded

end Table

/-! ### A store in use -/

/-- Only transactions that have begun are seen, and closing calls belong to closed ones. -/
structure Orderly (register : Register) (calls : FinMap TxnId Call) (log : List Event) : Prop where
  accessed : ∀ t access, .accessed t access ∈ log → register.isKnown t = true
  called : ∀ t call, calls.get? t = some call → register.isKnown t = true
  closing : ∀ t call stage, calls.get? t = some (.participation call stage) →
    stage.isClosing = true → register.isOpen t = false

namespace Orderly

variable {register register' : Register} {calls : FinMap TxnId Call} {log : List Event}

/-- Statuses may change as long as nobody is opened again. -/
theorem status (h : Orderly register calls log) (hafter : register.After register') :
    Orderly register' calls log where
  accessed := fun u access hin => hafter.known u (h.accessed u access hin)
  called := fun u call hcall => hafter.known u (h.called u call hcall)
  closing := by
    intro u call stage hcall hclosing
    by_contra hc
    have hwas := hafter.opens u (h.called u _ hcall) (Bool.of_not_eq_false hc)
    rw [h.closing u call stage hcall hclosing] at hwas
    exact absurd hwas (by simp)

/-- A transaction that has begun may go on to another call, but to a closing one only if it is not
open. -/
theorem goesOn (h : Orderly register calls log) {t : TxnId} {call' : Option Call}
    {events : List Event} (hknown : register.isKnown t = true)
    (hclosing : ∀ call stage, call' = some (.participation call stage) →
      stage.isClosing = true → register.isOpen t = false)
    (hevents : ∀ u access, .accessed u access ∈ events → u = t) :
    Orderly register (calls.change t call') (log ++ events) where
  accessed := by
    intro u access hin
    rcases List.mem_append.mp hin with hold | hnew
    · exact h.accessed u access hold
    · rwa [hevents u access hnew]
  called := by
    intro u call hcall
    by_cases hu : t = u
    · rwa [← hu]
    · rw [FinMap.get?_change, if_neg hu] at hcall
      exact h.called u call hcall
  closing := by
    intro u call stage hcall hstage
    by_cases hu : t = u
    · subst hu
      rw [FinMap.get?_change_self] at hcall
      exact hclosing call stage hcall hstage
    · rw [FinMap.get?_change, if_neg hu] at hcall
      exact h.closing u call stage hcall hstage

end Orderly

namespace Traffic

variable {β : Type}

/-- The transaction holds what it accesses, in a mode at least as strong. -/
def Holds (w : LockingTraffic β) (t : TxnId) : Access → Prop
  | .object oid mode =>
    ∃ held, (t, held) ∈ w.store.objects.table.holders oid ∧ held.max mode = held
  | .name key mode => ∃ held, (t, held) ∈ w.store.names.table.holders key ∧ held.max mode = held

/-- What is true of a store that takes locks, at every moment of a run. -/
structure Retains (w : LockingTraffic β) : Prop where
  objects : Guarded .object w.store.objects.table w.store.register w.calls w.log
  names : Guarded .name w.store.names.table w.store.register w.calls w.log
  orderly : Orderly w.store.register w.calls w.log

namespace Retains

variable {w w' : LockingTraffic β} {t : TxnId} {op : Operation}

theorem new (shards : Nat) (backend : β) : Retains (Traffic.new shards backend) where
  objects := .ofShards shards
  names := .ofShards shards
  orderly :=
    { accessed := fun _ _ h => absurd h List.not_mem_nil
      called := fun _ _ h => absurd h (by simp [Traffic.new])
      closing := fun _ _ _ h => absurd h (by simp [Traffic.new]) }

/-- A status may change. -/
theorem status (h : Retains w) {register : Register}
    (hafter : w.store.register.After register) :
    Retains { w with store := { w.store with register } } where
  objects := h.objects.frame
    (fun u key mode hin => hafter.opens u (h.orderly.accessed u (.object key mode) hin))
    (fun _ op stage _ _ hcall haccess => ⟨op, stage, hcall, haccess⟩) (fun _ _ _ => id)
  names := h.names.frame
    (fun u key mode hin => hafter.opens u (h.orderly.accessed u (.name key mode) hin))
    (fun _ op stage _ _ hcall haccess => ⟨op, stage, hcall, haccess⟩) (fun _ _ _ => id)
  orderly := h.orderly.status hafter

theorem goesOn (h : Retains w) {call' : Option Call} {events : List Event}
    (hknown : w.store.register.isKnown t = true)
    (hkeep : ∀ op stage access, w.calls.get? t = some (.operation op stage) →
      stage.access? = some access →
      ∃ op' stage', call' = some (.operation op' stage') ∧ stage'.access? = some access)
    (hclosing : ∀ call stage, call' = some (.participation call stage) →
      stage.isClosing = true → w.store.register.isOpen t = false)
    (hevents : ∀ u access, .accessed u access ∉ events) :
    Retains { w with calls := w.calls.change t call', log := w.log ++ events } := by
  have hcalls : ∀ u op stage access, w.calls.get? u = some (.operation op stage) →
      stage.access? = some access → ∃ op' stage',
        (w.calls.change t call').get? u = some (.operation op' stage') ∧
          stage'.access? = some access := by
    intro u op stage access hcall haccess
    by_cases hu : t = u
    · subst hu
      obtain ⟨op', stage', hcall', haccess'⟩ := hkeep op stage access hcall haccess
      exact ⟨op', stage', by rw [FinMap.get?_change_self, hcall'], haccess'⟩
    · exact ⟨op, stage, by rw [FinMap.get?_change, if_neg hu, hcall], haccess⟩
  have hlog : ∀ u access, .accessed u access ∈ w.log ++ events → .accessed u access ∈ w.log :=
    fun u access hin => (List.mem_append.mp hin).resolve_right (hevents u access)
  exact
    { objects := h.objects.frame (fun _ _ _ _ => id)
        (fun u op stage key mode => hcalls u op stage (.object key mode))
        (fun u key mode => hlog u (.object key mode))
      names := h.names.frame (fun _ _ _ _ => id)
        (fun u op stage key mode => hcalls u op stage (.name key mode))
        (fun u key mode => hlog u (.name key mode))
      orderly := h.orderly.goesOn hknown hclosing
        (fun u access hin => absurd hin (hevents u access)) }

theorem backend (h : Retains w) (backend : β) (isShutDown : Bool) :
    Retains { w with store := { w.store with backend, isShutDown } } :=
  ⟨h.objects, h.names, h.orderly⟩

theorem begin (h : Retains w) {call : Call} (hfree : w.calls.get? t = none)
    (hknown : w.store.register.isKnown t = true)
    (hopening : ∀ call' stage, call = .participation call' stage → stage.isClosing = false) :
    Retains { w with calls := w.calls.insert t call } := by
  have hgoes : Retains { w with calls := w.calls.change t (some call), log := w.log ++ [] } :=
    h.goesOn hknown
    (fun op stage access hcall => absurd (hfree.symm.trans hcall) (by simp))
    (fun call' stage hcall hclosing => absurd hclosing
      (by simp [hopening call' stage (Option.some.inj hcall)]))
    (fun _ _ => List.not_mem_nil)
  rwa [List.append_nil] at hgoes

theorem holds (h : Retains w) {access : Access} (haccess : .accessed t access ∈ w.log)
    (hopen : w.store.register.isOpen t = true) : w.Holds t access := by
  cases access with
  | object oid mode => exact (h.objects.held t oid mode haccess hopen).mem_holders
  | name key mode => exact (h.names.held t key mode haccess hopen).mem_holders

theorem agrees (h : Retains w) {u : TxnId} (hne : t ≠ u) {access access' : Access}
    (haccess : .accessed t access ∈ w.log) (hopen : w.store.register.isOpen t = true)
    (haccess' : .accessed u access' ∈ w.log) (hopen' : w.store.register.isOpen u = true) :
    access.conflictsWith access' = false := by
  cases access with
  | object oid mode =>
      cases access' with
      | object oid' mode' =>
          by_cases hoid : oid = oid'
          · subst hoid
            have hno := h.objects.agrees hne haccess hopen haccess' hopen'
            simp [Access.conflictsWith, hno]
          · simp [Access.conflictsWith, hoid]
      | name key mode' => rfl
  | name key mode =>
      cases access' with
      | object oid mode' => rfl
      | name key' mode' =>
          by_cases hkey : key = key'
          · subst hkey
            have hno := h.names.agrees hne haccess hopen haccess' hopen'
            simp [Access.conflictsWith, hno]
          · simp [Access.conflictsWith, hkey]

variable [Backend β]

theorem operation {stage stage' : Stage} {store : LockingStore β} (h : Retains w)
    (hcall : w.calls.get? t = some (.operation op stage))
    (hstep : OperationStep w.store t stage stage' store) :
    Retains
      { store
        calls := w.calls.change t (Call.ofStage op stage')
        log := w.log ++ Event.ofStep t op stage stage' } := by
  have hknown := h.orderly.called t _ hcall
  have hafter := after_of_operationStep hstep
  have hparticipation : ∀ call stage, Call.ofStage op stage' ≠ some (.participation call stage) := by
    intro call stage
    cases stage' <;> simp [Call.ofStage]
  have horderly : Orderly store.register (w.calls.change t (Call.ofStage op stage'))
      (w.log ++ Event.ofStep t op stage stage') :=
    (h.orderly.status hafter).goesOn (hafter.known t hknown)
      (fun call stage hc => absurd hc (hparticipation call stage))
      (fun u access hin => (Event.accessed_mem_ofStep hin).1)
  -- A stage that reports nothing has nothing queued.
  have hquiet : ∀ {backend : β}, store = { w.store with register := store.register, backend } →
      (∀ access, stage.access? = some access →
        ∃ op' stage'', Call.ofStage op stage' = some (.operation op' stage'') ∧
          stage''.access? = some access) →
      (∀ access plan, stage ≠ .report access plan) →
      Retains
        { store
          calls := w.calls.change t (Call.ofStage op stage')
          log := w.log ++ Event.ofStep t op stage stage' } := by
    intro backend hstore hkeep hnoReport
    rw [hstore]
    refine ((h.status hafter).backend backend w.store.isShutDown).goesOn (hafter.known t hknown) ?_
      (fun call stage hc => absurd hc (hparticipation call stage)) ?_
    · intro op' stage'' access hcall' haccess
      have hsame : some (Call.operation op stage) = some (.operation op' stage'') :=
        hcall.symm.trans hcall'
      cases hsame
      exact hkeep access haccess
    · intro u access hin
      obtain ⟨-, ⟨plan, hreport⟩, -⟩ := Event.accessed_mem_ofStep hin
      exact hnoReport access plan hreport
  cases hstep with
  | reportsObject hturn hstage =>
      refine ⟨h.objects.turn ?_ hcall hturn hstage, h.names.beside ?_ hcall
        (Register.wounded_turn hturn), horderly⟩
      · intro k m k' m' heq
        cases heq
        exact ⟨rfl, rfl⟩
      · intro k m heq
        cases heq
  | reportsName hturn hstage =>
      refine ⟨h.objects.beside ?_ hcall (Register.wounded_turn hturn),
        h.names.turn ?_ hcall hturn hstage, horderly⟩
      · intro k m heq
        cases heq
      · intro k m k' m' heq
        cases heq
        exact ⟨rfl, rfl⟩
  | wakes =>
      refine hquiet rfl (fun access haccess => ⟨op, _, rfl, haccess⟩) ?_
      intro access plan hc
      cases hc
  | acts hact =>
      refine hquiet rfl (fun access haccess => absurd haccess (by simp [Stage.access?])) ?_
      intro access plan hc
      cases hc
  | fails =>
      refine hquiet rfl (fun access haccess => absurd haccess (by simp [Stage.access?])) ?_
      intro access plan hc
      cases hc

theorem participation {call : ParticipantCall} {stage stage' : ParticipantStage}
    {store : LockingStore β} (h : Retains w)
    (hcall : w.calls.get? t = some (.participation call stage))
    (hstep : ParticipantMove w.store t stage stage' store) :
    Retains
      { store
        calls := w.calls.change t (Call.ofParticipantStage call stage')
        log := w.log ++ Event.ofParticipantStep t call stage stage' } := by
  have hknown := h.orderly.called t _ hcall
  have hafter := after_of_participantMove hstep
  have hclosed : stage.isClosing = true → store.register.isOpen t = false := by
    intro hclosing
    by_contra hc
    have hwas := hafter.opens t hknown (Bool.of_not_eq_false hc)
    rw [h.orderly.closing t call stage hcall hclosing] at hwas
    exact absurd hwas (by simp)
  have hgoesOn : ∀ {w' : LockingTraffic β}, Retains w' → w'.calls = w.calls → w'.log = w.log →
      w'.store = store →
      Retains
        { store
          calls := w.calls.change t (Call.ofParticipantStage call stage')
          log := w.log ++ Event.ofParticipantStep t call stage stage' } := by
    rintro ⟨store', calls', log'⟩ h' rfl rfl rfl
    refine h'.goesOn (hafter.known t hknown) ?_ ?_
      (fun _ _ => Event.accessed_not_mem_ofParticipantStep)
    · intro op' stage'' access hcall'
      rw [hcall] at hcall'
      cases hcall'
    · intro call' stage'' hstage hclosing
      refine closed_of_participantMove hstep hclosed ?_
      cases stage' <;> cases hstage <;> exact hclosing
  cases hstep with
  | refused => exact hgoesOn (h.status hafter) rfl rfl rfl
  | prepares => exact hgoesOn (h.status hafter) rfl rfl rfl
  | entersCommit => exact hgoesOn h rfl rfl rfl
  | entersAbort => exact hgoesOn (h.status hafter) rfl rfl rfl
  | @calls _ _ backend _ => exact hgoesOn (h.backend backend w.store.isShutDown) rfl rfl rfl
  | completes => exact hgoesOn (h.status hafter) rfl rfl rfl
  | releasesObjects =>
      exact @hgoesOn { w with store := { w.store with objects := w.store.objects.finish t } }
        ⟨h.objects.releaseAll (hclosed rfl), h.names, h.orderly⟩ rfl rfl rfl
  | releasesNames =>
      exact @hgoesOn { w with store := { w.store with names := w.store.names.finish t } }
        ⟨h.objects, h.names.releaseAll (hclosed rfl), h.orderly⟩ rfl rfl rfl
  | fails => exact hgoesOn (h.status hafter) rfl rfl rfl

theorem own (h : Retains w) (hown : w.OwnMove t w') : Retains w' := by
  have hafter := after_of_ownMove hown
  cases hown with
  | begins => exact h.status hafter
  | starts hfree hknown =>
      exact (h.status hafter).begin hfree (hafter.known _ hknown) (fun _ _ hc => by cases hc)
  | participates hfree hknown =>
      exact h.begin hfree hknown (fun _ _ hc => by cases hc; rfl)
  | operation hcall hstep => exact h.operation hcall hstep
  | participation hcall hstep => exact h.participation hcall hstep

/-- **Every action keeps what is true of the locks.** -/
theorem move (h : Retains w) (hmove : w.Move w') : Retains w' := by
  have hafter := after_of_move hmove
  cases hmove with
  | rest => exact h
  | aside hobjects hnames =>
      refine ⟨?_, ?_, h.orderly⟩
      · show Guarded .object (LockingReporter.table _) _ _ _
        rw [hobjects]
        exact h.objects
      · show Guarded .name (LockingReporter.table _) _ _ _
        rw [hnames]
        exact h.names
  | aborts => exact h.status hafter
  | own hown => exact h.own hown
  | @shutsDown isShutDown _ => exact h.backend _ isShutDown

theorem run (shards : Nat) (backend : β) (actions : List StoreAction) :
    Retains ((Traffic.new shards backend).run actions) :=
  run_induction (new shards backend) (fun w a h => h.move (move_perform w a)) actions

end Retains

/--
**Strict two-phase locking.**  Whoever is active or prepared holds every key that it was allowed to
access, in a mode at least as strong; so no two of them were ever allowed accesses that conflict.
-/
theorem holds_of_accessed [Backend β] (shards : Nat) (backend : β) (actions : List StoreAction)
    {t : TxnId} {access : Access}
    (haccess : .accessed t access ∈ ((new shards backend).run actions).log)
    (hopen : ((new shards backend).run actions).store.register.isOpen t = true) :
    ((new shards backend).run actions).Holds t access ∧
      ∀ u access', t ≠ u → .accessed u access' ∈ ((new shards backend).run actions).log →
        ((new shards backend).run actions).store.register.isOpen u = true →
        access.conflictsWith access' = false := by
  have h := Retains.run shards backend actions
  refine ⟨h.holds haccess hopen, ?_⟩
  intro u access' hne haccess' hopen'
  exact h.agrees hne haccess hopen haccess' hopen'

/-- Binds a name and prepares; the deadline passes, and then an older transaction wants the name. -/
def expiredButPrepared : List StoreAction :=
  [.begin ⟨1⟩ ⟨2, 0⟩ 1, .operate ⟨1⟩ (.setBinding ⟨"n"⟩ ⟨7⟩), .proceed ⟨1⟩, .proceed ⟨1⟩, .proceed ⟨1⟩,
    .proceed ⟨1⟩, .participate ⟨1⟩ .prepare, .proceed ⟨1⟩, .proceed ⟨1⟩, .tick 5,
    .begin ⟨2⟩ ⟨1, 0⟩ 9, .operate ⟨2⟩ (.getBinding ⟨"n"⟩), .proceed ⟨2⟩]

/-- The transaction that has prepared keeps the name, although its deadline has passed. -/
theorem holds_of_expiredButPrepared :
    ((new 1 Memory.empty).run expiredButPrepared).Holds ⟨1⟩ (.name (.ofName ⟨"n"⟩) .write) ∧
      ∀ u access', ⟨1⟩ ≠ u →
        .accessed u access' ∈ ((new 1 Memory.empty).run expiredButPrepared).log →
        ((new 1 Memory.empty).run expiredButPrepared).store.register.isOpen u = true →
        (Access.name (.ofName ⟨"n"⟩) .write).conflictsWith access' = false :=
  holds_of_accessed 1 Memory.empty expiredButPrepared
    (List.mem_of_getElem? (show ((new 1 Memory.empty).run expiredButPrepared).log[0]? = _ from rfl))
    (by decide)

end Traffic

end ObjectStore
