/-
The next object.

An iteration asks the backend once what the next object is, and then for the lock on it, for which it
may have to wait.  Whoever holds the lock may have removed the object by then, and commit.  The
iteration does not ask again, so it answers an object that was there when it asked, and that need not
be there any more.

`Looks` is the course of an iteration from its beginning to its answer, while other transactions go on:
once it has found an object it keeps to it, and remembers the moment at which it found it.
-/
import ObjectStore.Proofs.Store.Batch

namespace ObjectStore

namespace Write

variable {oid : ObjectId} {writes : List Write} {x : Write}

end Write

/-- There is no answer to the transaction among the events. -/
def Unanswered (t : TxnId) (events : List Event) : Prop :=
  ∀ op result, .answered t op result ∉ events

namespace Unanswered

variable {t : TxnId} {events events' : List Event}

theorem nil (t : TxnId) : Unanswered t [] := fun _ _ => List.not_mem_nil

theorem append (h : Unanswered t events) (h' : Unanswered t events') :
    Unanswered t (events ++ events') :=
  fun op result hin => (List.mem_append.mp hin).elim (h op result) (h' op result)

theorem ledger (h : Unanswered t events) : ledger t events = [] := gathered_eq_nil h

end Unanswered

/-- Asking for the next object ends the iteration, or names what is next for the transaction. -/
theorem act_nextObject {s : LockingStore Memory} {t : TxnId} {after : Option ObjectId}
    {stage' : Stage} {m' : Memory}
    (h : s.act t (.nextObject after) = (stage', { s with backend := m' })) :
    (∃ e, stage' = .failing e) ∨ stage' = .ended (.ok (.nextObject none)) ∨
      ∃ oid, s.backend.isShutDown = false ∧ IsNext (s.backend.view t).Has after (some oid) ∧
        stage' = .report (.object oid .read) (.answer (.ok (.nextObject (some oid)))) := by
  rcases callThen_cases h with ⟨next, hperform, rfl⟩ | ⟨e, -, rfl⟩
  · cases hshut : s.backend.isShutDown with
    | true =>
        rw [Memory.perform_of_isShutDown hshut rfl] at hperform
        cases hperform
    | false =>
        rw [Memory.perform_of_open hshut] at hperform
        obtain rfl : s.backend.nextObject? t after = next := Except.ok.inj (Prod.mk.inj hperform).1
        have hnext := s.backend.isNext_nextObject? t after
        cases hfound : s.backend.nextObject? t after with
        | none => exact Or.inr (Or.inl rfl)
        | some oid => exact Or.inr (Or.inr ⟨oid, rfl, hfound ▸ hnext, rfl⟩)
  · exact Or.inl ⟨e, rfl⟩

theorem OperationStep.answers {s s' : LockingStore Memory} {t : TxnId} {reply : Reply}
    {result : Except StoreError Reply}
    (h : OperationStep s t (.act (.answer result)) (.ended (.ok reply)) s') :
    result = .ok reply ∧ s'.backend = s.backend ∧ s'.register = s.register := by
  cases h with
  | acts hact =>
      obtain ⟨hresult, hstore⟩ := Prod.mk.inj hact
      exact ⟨eq_ok_of_ofResult hresult.symm, (congrArg Store.backend hstore).symm, rfl⟩

theorem OperationStep.stays_active {s s' : LockingStore Memory} {t : TxnId} {oid : ObjectId}
    {mode : LockMode} {plan plan' : Plan}
    (h : OperationStep s t (.report (.object oid mode) plan) (.act plan') s') :
    s'.register.stateOf t = .active := by
  have hactive := h.active_of_allowed
  cases h with
  | reportsObject hturn => rwa [Register.stateOf, Register.find_turn_self hturn]

namespace Traffic

variable {w w' : LockingTraffic Memory} {t u : TxnId} {after : Option ObjectId} {oid : ObjectId}
variable {early middle : List StoreAction} {since waited granted events : List Event} {stage : Stage}

/-! ### The course of an iteration -/

theorem unanswered_ofStep (t : TxnId) (op : Operation) {stage' : Stage}
    (h : ∀ result, stage' ≠ .ended result) : Unanswered t (Event.ofStep t op stage stage') := by
  intro op' result hin
  unfold Event.ofStep at hin
  split at hin
  · cases List.mem_singleton.mp hin
  · exact h _ rfl
  · exact List.not_mem_nil hin

/-- An iteration that has found an object.  After the actions `early` it was about to ask, and the
object was next; and this has been logged since. -/
structure Found (w : LockingTraffic Memory) (t : TxnId) (after : Option ObjectId) (oid : ObjectId)
    (early middle : List StoreAction) (since : List Event) : Prop where
  within : early <+: middle
  asks : (w.during t (.nextObject after) early).calls.get? t =
    some (.operation (.nextObject after) (.act (.nextObject after)))
  isServed : (w.during t (.nextObject after) early).store.backend.isShutDown = false
  isNext : IsNext ((w.during t (.nextObject after) early).store.backend.view t).Has after (some oid)
  log : (w.during t (.nextObject after) middle).log =
    (w.during t (.nextObject after) early).log ++ since
  unanswered : Unanswered t since

theorem Found.goesOn (h : Found w t after oid early middle since) {a : StoreAction}
    (hlog : (w.during t (.nextObject after) (middle ++ [a])).log =
      (w.during t (.nextObject after) middle).log ++ events)
    (hnothing : Unanswered t events) :
    Found w t after oid early (middle ++ [a]) (since ++ events) where
  within := h.within.trans (List.prefix_append middle [a])
  asks := h.asks
  isServed := h.isServed
  isNext := h.isNext
  log := by rw [hlog, h.log, List.append_assoc]
  unanswered := h.unanswered.append hnothing

/-- It has been allowed to read the object, by a turn that has found it active and has left it so. -/
structure Allowed (w : LockingTraffic Memory) (t : TxnId) (after : Option ObjectId) (oid : ObjectId)
    (early middle : List StoreAction) (waited : List Event) : Prop
    extends Found w t after oid early middle (waited ++ [.accessed t (.object oid .read)]) where
  active : (w.during t (.nextObject after) middle).store.register.stateOf t = .active

/-- The stages of an iteration, with what it has found by then. -/
inductive Looks (w : LockingTraffic Memory) (t : TxnId) (after : Option ObjectId)
    (middle : List StoreAction) : Stage → Prop where
  | asks : Looks w t after middle (.act (.nextObject after))
  | reports {oid : ObjectId} {early : List StoreAction} {waited : List Event}
    (hfound : Found w t after oid early middle waited) :
    Looks w t after middle
      (.report (.object oid .read) (.answer (.ok (.nextObject (some oid)))))
  | waits {oid : ObjectId} {early : List StoreAction} {waited : List Event} (signal : Signal)
    (hfound : Found w t after oid early middle waited) :
    Looks w t after middle
      (.waiting signal (.object oid .read) (.answer (.ok (.nextObject (some oid)))))
  | answers {oid : ObjectId} {early upTo : List StoreAction} {waited granted : List Event}
    (hallowed : Allowed w t after oid early upTo waited) (hsince : upTo <+: middle)
    (hfound : Found w t after oid early middle
      (waited ++ .accessed t (.object oid .read) :: granted)) :
    Looks w t after middle (.act (.answer (.ok (.nextObject (some oid)))))
  | fails (e : StoreError) : Looks w t after middle (.failing e)

namespace Looks

theorem goesOn (h : Looks w t after middle stage) {a : StoreAction}
    (hlog : (w.during t (.nextObject after) (middle ++ [a])).log =
      (w.during t (.nextObject after) middle).log ++ events)
    (hnothing : Unanswered t events) : Looks w t after (middle ++ [a]) stage := by
  cases h with
  | asks => exact .asks
  | reports hfound => exact .reports (hfound.goesOn hlog hnothing)
  | waits signal hfound => exact .waits signal (hfound.goesOn hlog hnothing)
  | answers hallowed hsince hfound =>
      have hlater := hfound.goesOn hlog hnothing
      rw [List.append_assoc, List.cons_append] at hlater
      exact .answers hallowed (hsince.trans (List.prefix_append middle [a])) hlater
  | fails e => exact .fails e

theorem step (h : Looks w t after middle stage) {a : StoreAction} {stage' : Stage}
    {store : LockingStore Memory}
    (hcall : (w.during t (.nextObject after) middle).calls.get? t =
      some (.operation (.nextObject after) stage))
    (hstep : OperationStep (w.during t (.nextObject after) middle).store t stage stage' store)
    (hstore : (w.during t (.nextObject after) (middle ++ [a])).store = store)
    (hlog : (w.during t (.nextObject after) (middle ++ [a])).log =
      (w.during t (.nextObject after) middle).log ++ Event.ofStep t (.nextObject after) stage stage')
    (hgoes : ∀ result, stage' ≠ .ended result) : Looks w t after (middle ++ [a]) stage' := by
  have hnothing : Unanswered t (Event.ofStep t (.nextObject after) stage stage') :=
    unanswered_ofStep t _ hgoes
  cases h with
  | asks =>
      cases hstep with
      | acts hact =>
          rcases act_nextObject hact with ⟨e, rfl⟩ | rfl | ⟨oid, hserved, hnext, rfl⟩
          · exact .fails e
          · exact absurd rfl (hgoes _)
          · have hfound : Found w t after oid middle middle [] :=
              { within := List.prefix_rfl
                asks := hcall
                isServed := hserved
                isNext := hnext
                log := (List.append_nil _).symm
                unanswered := .nil t }
            exact .reports (hfound.goesOn hlog hnothing)
  | @reports oid early waited hfound =>
      have hactive : ∀ {plan'}, stage' = .act plan' → store.register.stateOf t = .active := by
        rintro plan' rfl
        exact hstep.stays_active
      cases hstep with
      | reportsObject _ hturn =>
          cases hturn with
          | allowed =>
              have hlater := hfound.goesOn hlog hnothing
              exact .answers ⟨hlater, hstore ▸ hactive rfl⟩ List.prefix_rfl hlater
          | waiting signal => exact .waits signal (hfound.goesOn hlog hnothing)
          | timedOut => exact .fails _
          | late e => exact .fails e
  | waits signal hfound =>
      cases hstep with
      | wakes => exact .reports (hfound.goesOn hlog hnothing)
  | answers hfound =>
      cases hstep with
      | acts hact =>
          cases acted_of_act hact with
          | fails => exact .fails _
          | plain => exact absurd rfl (hgoes _)
          | answers => exact absurd rfl (hgoes _)
  | fails e =>
      cases hstep with
      | fails => exact absurd rfl (hgoes _)

/-- **Whatever happens while an iteration is under way.** -/
theorem perform (h : Looks w t after middle stage)
    (hcall : (w.during t (.nextObject after) middle).calls.get? t =
      some (.operation (.nextObject after) stage)) {a : StoreAction}
    (hbusy : (w.during t (.nextObject after) (middle ++ [a])).calls.contains t = true) :
    ∃ stage', (w.during t (.nextObject after) (middle ++ [a])).calls.get? t =
        some (.operation (.nextObject after) stage') ∧ Looks w t after (middle ++ [a]) stage' := by
  have hmove := move_perform (w.during t (.nextObject after) middle) a
  rw [← during_concat] at hmove
  rcases hmove.beside_or_own t with hbeside | hown
  · obtain ⟨events, hlog, hnothing, -⟩ := hbeside.log
    exact ⟨stage, hbeside.call.trans hcall, h.goesOn hlog hnothing⟩
  · rcases hown.of_operation hcall hbusy with ⟨hsame, hlog, -⟩ | ⟨stage', hstep, hcall', hlog, hgoes⟩
    · exact ⟨stage, hsame, h.goesOn (hlog.trans (List.append_nil _).symm) (.nil t)⟩
    · exact ⟨stage', hcall', h.step hcall hstep rfl hlog hgoes⟩

theorem run (hfree : w.isFree t = true) (middle : List StoreAction)
    (hbusy : isBusy t middle (w.perform (.operate t (.nextObject after))) = true) :
    ∃ stage, (w.during t (.nextObject after) middle).calls.get? t =
        some (.operation (.nextObject after) stage) ∧ Looks w t after middle stage := by
  induction middle using List.reverseRecOn with
  | nil =>
      refine ⟨(w.store.start t (.nextObject after)).1, ?_, ?_⟩
      · show (w.perform (.operate t (.nextObject after))).calls.get? t = _
        rw [perform_operate _ hfree]
        exact FinMap.get?_insert_self _ _ _
      · rcases w.store.begins_start t (.nextObject after) with hfirst | ⟨e, hfails, -⟩
        · rw [hfirst]
          exact .asks
        · rw [hfails]
          exact .fails e
  | append_singleton middle a ih =>
      obtain ⟨hbefore, hlast⟩ := isBusy_concat t middle a _ hbusy
      obtain ⟨stage, hcall, hlooks⟩ := ih hbefore
      exact hlooks.perform hcall hlast

end Looks

/-- An iteration that answers an object has found it before, and has then been allowed to read it. -/
theorem Completes.found
    (h : w.Completes t (.nextObject after) middle (.ok (.nextObject (some oid)))) :
    ∃ early upTo waited granted,
      Allowed w t after oid early upTo waited ∧ upTo <+: middle ∧
      Found w t after oid early middle (waited ++ .accessed t (.object oid .read) :: granted) ∧
        (w.during t (.nextObject after) middle).calls.get? t = some (.operation (.nextObject after)
          (.act (.answer (.ok (.nextObject (some oid)))))) ∧
        (w.afterwards t (.nextObject after) middle).store.backend =
          (w.during t (.nextObject after) middle).store.backend ∧
        (w.afterwards t (.nextObject after) middle).store.register =
          (w.during t (.nextObject after) middle).store.register := by
  obtain ⟨stage, hcall, hlooks⟩ := Looks.run h.free middle h.busy
  obtain ⟨stage', hcall', hstep⟩ := (move_perform _ (.proceed t)).endsIn h.answered
  cases hcall'.symm.trans hcall
  have hended := hstep.ended_cases
  cases hlooks with
  | asks =>
      rcases hended with ⟨plan, backend, heq, hact⟩ | ⟨e, heq, -⟩
      · cases heq
        rcases act_nextObject hact with ⟨e, heq⟩ | heq | ⟨oid', -, -, heq⟩ <;> cases heq
      · cases heq
  | reports => rcases hended with ⟨plan, backend, heq, -⟩ | ⟨e, heq, -⟩ <;> cases heq
  | waits => rcases hended with ⟨plan, backend, heq, -⟩ | ⟨e, heq, -⟩ <;> cases heq
  | answers hallowed hsince hfound =>
      obtain ⟨hresult, hbackend, hregister⟩ := hstep.answers
      cases hresult
      exact ⟨_, _, _, _, hallowed, hsince, hfound, hcall, hbackend, hregister⟩
  | fails e =>
      rcases hended with ⟨plan, backend, heq, -⟩ | ⟨e', -, hresult⟩
      · cases heq
      · cases hresult

/-! ### What has become of the object -/

section Object

variable {shards : Nat} {actions : List StoreAction}

/-- When the iteration asked, the transaction saw the object. -/
theorem Found.seen
    (h : Found ((Traffic.new shards Memory.empty).run actions) t after oid early middle since) :
    ∃ d, seenIn (((Traffic.new shards Memory.empty).run actions).during t (.nextObject after)
      early).log t oid = some d := by
  have hthere := (h.isNext.found oid rfl).2
  have hasks := h.asks
  have hserved := h.isServed
  rw [during_run] at hthere hasks hserved ⊢
  have hseen := seenIn_of_act (Settled.run shards _) (Accounted.run shards _ t) hasks rfl hserved oid
  rw [← hseen]
  exact Option.isSome_iff_exists.mp hthere

end Object

end Traffic

end ObjectStore
