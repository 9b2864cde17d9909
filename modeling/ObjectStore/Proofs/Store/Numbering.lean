/-
The numbers of objects.

The backend counts the objects that it makes, and gives each the number it has come to.  Nothing else
moves the count.  So the numbers that have been given out, in the order of the log, are one, two,
three and so on round the ring of numbers, and no number is given out twice before the ring is used up.
-/
import ObjectStore.Proofs.Backend.Classes
import ObjectStore.Proofs.Store.Reread

namespace ObjectStore

section Acts

variable {ρo ρn : Type} {s : Store ρo ρn Memory} {t : TxnId} {plan : Plan}

theorem backend_callThen {α : Type} (c : BackendCall α) (next : α → Stage) :
    (s.callThen t c next).2.backend = (Memory.perform c t s.backend).2 := by
  unfold Store.callThen Store.call
  simp only [Backend.perform]
  rcases Memory.perform c t s.backend with ⟨_ | _, _⟩ <;> rfl

theorem nextOid_act [Reporter ρo ObjectId] [Reporter ρn NameKey] (hplan : plan ≠ .create) :
    (s.act t plan).2.backend.nextOid = s.backend.nextOid := by
  cases plan with
  | create => exact absurd rfl hplan
  | setMany unreported items =>
      cases unreported with
      | nil =>
          exact (congrArg Memory.nextOid (backend_callThen _ _)).trans
            (Memory.nextOid_perform (by simp [BackendCall.kind]) t s.backend)
      | cons oid rest => rfl
  | answer result => rfl
  | _ =>
      exact (congrArg Memory.nextOid (backend_callThen _ _)).trans
        (Memory.nextOid_perform (by simp [BackendCall.kind]) t s.backend)

theorem nextOid_callBackend (call : ParticipantCall) :
    (s.callBackend t call).2.backend.nextOid = s.backend.nextOid := by
  have hbackend : ∃ (α : Type) (c : BackendCall α), c.kind ≠ .create ∧
      (s.callBackend t call).2.backend = (Memory.perform c t s.backend).2 := by
    unfold Store.callBackend Store.call
    simp only [Backend.perform]
    cases call with
    | prepare =>
        refine ⟨_, .prepare, nofun, ?_⟩
        rcases Memory.perform .prepare t s.backend with ⟨_ | _ | _, _⟩ <;> rfl
    | commit =>
        refine ⟨_, .commit, nofun, ?_⟩
        rcases Memory.perform .commit t s.backend with ⟨_ | _, _⟩ <;> rfl
    | prepareAndCommit =>
        refine ⟨_, .prepareAndCommit, nofun, ?_⟩
        rcases Memory.perform .prepareAndCommit t s.backend with ⟨_ | _, _⟩ <;> rfl
    | abort => exact ⟨_, .abort, nofun, rfl⟩
  obtain ⟨α, c, hc, hbackend⟩ := hbackend
  rw [hbackend]
  exact Memory.nextOid_perform hc t s.backend

end Acts

/-- The object that has been made, if that is what an event tells. -/
def Event.creation? : Event → Option ObjectId
  | .answered _ .create (.ok (.object oid)) => some oid
  | _ => none

/-- The objects that have been made, in order. -/
def creations (log : List Event) : List ObjectId := log.filterMap Event.creation?

theorem creations_append (log log' : List Event) :
    creations (log ++ log') = creations log ++ creations log' :=
  List.filterMap_append

theorem creations_ofParticipantStep (t : TxnId) (call : ParticipantCall)
    (stage stage' : ParticipantStage) :
    creations (Event.ofParticipantStep t call stage stage') = [] := by
  unfold Event.ofParticipantStep
  split <;> rfl

theorem creations_ofStep_of_ne {op : Operation} (hop : op ≠ .create) (t : TxnId)
    (stage stage' : Stage) : creations (Event.ofStep t op stage stage') = [] := by
  unfold Event.ofStep
  split
  · rfl
  · cases op with
    | create => exact absurd rfl hop
    | _ => rfl
  · rfl

namespace Traffic

variable {w w' : LockingTraffic Memory} {t u : TxnId} {oid : ObjectId}

theorem act_create_cases {s : LockingStore Memory} {stage' : Stage} {m' : Memory}
    (h : s.act t .create = (stage', { s with backend := m' })) :
    stage' = .ended (.ok (.object s.backend.nextOid)) ∧ m'.nextOid = s.backend.nextOid.next ∨
      (∃ e, stage' = .failing e) ∧ m' = s.backend := by
  cases hshut : s.backend.isShutDown with
  | true =>
      have hrefused := Memory.perform_of_isShutDown (c := .create) (t := t) hshut rfl
      rcases callThen_cases h with ⟨a, hperform, -⟩ | ⟨e, hperform, rfl⟩
      · rw [hrefused] at hperform
        cases hperform
      · rw [hrefused] at hperform
        cases hperform
        exact Or.inr ⟨⟨_, rfl⟩, rfl⟩
  | false =>
      have hmade : Memory.perform .create t s.backend =
          (.ok s.backend.nextOid, (s.backend.create t).2) := Memory.perform_of_open hshut
      rcases callThen_cases h with ⟨a, hperform, rfl⟩ | ⟨e, hperform, -⟩
      · rw [hmade] at hperform
        cases hperform
        exact Or.inl ⟨rfl, rfl⟩
      · rw [hmade] at hperform
        cases hperform

/-- An action makes an object, which is given the number that the backend has come to, or it leaves
the count alone. -/
theorem Move.creates_or_keeps (hsound : Sound w) (haccounted : ∀ t, Accounted w t)
    (hmove : w.Move w') :
    creations w'.log = creations w.log ++ [w.store.backend.nextOid] ∧
        w'.store.backend.nextOid = w.store.backend.nextOid.next ∨
      creations w'.log = creations w.log ∧
        w'.store.backend.nextOid = w.store.backend.nextOid := by
  cases hmove with
  | rest => exact Or.inr ⟨rfl, rfl⟩
  | aside => exact Or.inr ⟨rfl, rfl⟩
  | aborts => exact Or.inr ⟨rfl, rfl⟩
  | shutsDown => exact Or.inr ⟨rfl, Memory.nextOid_perform (c := .shutdown) nofun _ _⟩
  | @own t _ hown =>
      cases hown with
      | begins => exact Or.inr ⟨rfl, rfl⟩
      | starts => exact Or.inr ⟨rfl, rfl⟩
      | participates => exact Or.inr ⟨rfl, rfl⟩
      | @operation op stage stage' store hcall hstep =>
          have hserves := (haccounted t).serves _ _ hcall
          have hfits := ((hsound.traced t).fits _ _ hcall).1
          rw [creations_append]
          by_cases hop : op = .create
          · subst hop
            cases hstep with
            | @acts plan _ backend hact =>
                obtain rfl := plan.eq_of_onePlan? rfl hserves hfits
                rcases act_create_cases hact with ⟨rfl, hnext⟩ | ⟨⟨e, rfl⟩, rfl⟩
                · exact Or.inl ⟨rfl, hnext⟩
                · exact Or.inr ⟨List.append_nil _, rfl⟩
            | reportsObject _ hstage => cases hstage <;> exact Or.inr ⟨List.append_nil _, rfl⟩
            | reportsName _ hstage => cases hstage <;> exact Or.inr ⟨List.append_nil _, rfl⟩
            | wakes => exact Or.inr ⟨List.append_nil _, rfl⟩
            | fails => exact Or.inr ⟨List.append_nil _, rfl⟩
          · rw [creations_ofStep_of_ne hop, List.append_nil]
            cases hstep with
            | @acts plan _ backend hact =>
                have hplan : plan ≠ .create := by
                  rintro rfl
                  exact hop hserves
                have hnext := nextOid_act (s := w.store) (t := t) hplan
                rw [hact] at hnext
                exact Or.inr ⟨rfl, hnext⟩
            | _ => exact Or.inr ⟨rfl, rfl⟩
      | @participation call stage stage' store hcall hstep =>
          rw [creations_append, creations_ofParticipantStep, List.append_nil]
          cases hstep with
          | @calls called _ backend hcalled =>
              have hnext := nextOid_callBackend (s := w.store) (t := t) called
              rw [hcalled] at hnext
              exact Or.inr ⟨rfl, hnext⟩
          | _ => exact Or.inr ⟨rfl, rfl⟩

/-- The number that an object is given when so many have been made before. -/
def numberAfter (made : Nat) : ObjectId := ⟨(made + 1) % wideLimit⟩

theorem next_numberAfter (made : Nat) : (numberAfter made).next = numberAfter (made + 1) := by
  unfold numberAfter ObjectId.next
  simp only [Nat.mod_add_mod]

/-- The numbers come in order. -/
structure Numbered (w : LockingTraffic Memory) : Prop where
  next : w.store.backend.nextOid = numberAfter (creations w.log).length
  creations : ObjectStore.creations w.log =
    (List.range (ObjectStore.creations w.log).length).map numberAfter

theorem Numbered.run (shards : Nat) (actions : List StoreAction) :
    Numbered ((Traffic.new shards Memory.empty).run actions) := by
  induction actions using List.reverseRecOn with
  | nil => exact ⟨rfl, rfl⟩
  | append_singleton actions a ih =>
      rw [run_concat]
      rcases (move_perform _ a).creates_or_keeps (Sound.run shards actions)
        (Accounted.run shards actions) with ⟨hmade, hnext⟩ | ⟨hsame, hnext⟩
      · refine ⟨?_, ?_⟩
        · rw [hnext, hmade, ih.next, next_numberAfter, List.length_append]
          rfl
        · rw [hmade, List.length_append, List.length_singleton, List.range_succ, List.map_append,
            ← ih.creations, ih.next]
          rfl
      · refine ⟨?_, ?_⟩
        · rw [hnext, hsame, ih.next]
        · rw [hsame]
          exact ih.creations

/-- **No number is given out twice**, before all have been given out. -/
theorem nodup_creations (shards : Nat) (actions : List StoreAction)
    (hcount : (creations ((Traffic.new shards Memory.empty).run actions).log).length ≤ wideLimit) :
    (creations ((Traffic.new shards Memory.empty).run actions).log).Nodup := by
  rw [(Numbered.run shards actions).creations]
  refine List.Nodup.map_on ?_ List.nodup_range
  intro i hi j hj hsame
  have hval : (i + 1) % wideLimit = (j + 1) % wideLimit := congrArg ObjectId.val hsame
  rw [List.mem_range] at hi hj
  unfold wideLimit at hcount hval
  omega

/-! ### Who has made an object -/

namespace Created

variable {v : TxnId} {log log' : List Event}

theorem mem_creations (h : Created log u oid) : oid ∈ creations log :=
  List.mem_filterMap.mpr ⟨_, h, rfl⟩

theorem append (h : Created log u oid) (log' : List Event) : Created (log ++ log') u oid :=
  List.mem_append_left log' h

/-- An object that has been made is not made again, -/
theorem not_created (h : Created log u oid) (hnodup : (creations (log ++ log')).Nodup) :
    ¬ Created log' v oid := by
  intro hagain
  rw [creations_append] at hnodup
  exact (List.nodup_append.mp hnodup).2.2 oid h.mem_creations oid hagain.mem_creations rfl

/-- and was made by one transaction. -/
theorem eq_of_created (h : Created log u oid) (h' : Created log v oid)
    (hnodup : (creations log).Nodup) : u = v := by
  obtain ⟨before, rest, rfl⟩ := List.append_of_mem h
  rcases List.mem_append.mp h' with hbefore | hrest
  · have hthis : Created (.answered u .create (.ok (.object oid)) :: rest) u oid :=
      List.mem_cons_self
    exact absurd hthis (not_created hbefore hnodup)
  · rcases List.mem_cons.mp hrest with heq | hafter
    · cases heq
      rfl
    · have hthis : Created (before ++ [.answered u .create (.ok (.object oid))]) u oid :=
        List.mem_append_right _ (List.mem_singleton_self _)
      rw [List.append_cons] at hnodup
      exact absurd hafter (not_created hthis hnodup)

end Created

end Traffic

end ObjectStore
