/-
What the stages of an operation say about its answer.

Once an operation has read or written its name its answer is decided, although locks may still have
to be waited for: `Stage.outcome?` is the answer it gives if it gives one.  A stage fits its
operation if the operation can have come to it.

`Acted` lists what carrying a plan out may come to at the memory backend, and `acted_of_act` says
that the list is complete.  What follows is about the three plans by which an operation reads or
writes its name (`Acted.point`) and about all others (`Acted.keepsNames`, `Acted.outcome`).
-/
import ObjectStore.Proofs.Backend.Names
import ObjectStore.Proofs.Naming.Replay
import ObjectStore.Store.Store

namespace ObjectStore

/-- The access that a point operation needs to its name. -/
def Operation.nameAccess? : Operation → Option Access
  | .getBinding name => some (.name (.ofName name) .read)
  | .setBinding name _ => some (.name (.ofName name) .write)
  | .removeBinding name => some (.name (.ofName name) .write)
  | _ => none

theorem Operation.nameAccess?_of_name? {op : Operation} {name : Name} (h : op.name? = some name) :
    ∃ mode, op.nameAccess? = some (.name (.ofName name) mode) := by
  cases op <;> cases h <;> exact ⟨_, rfl⟩

namespace Plan

/-- The point operation that the plan carries out. -/
def point? : Plan → Option Operation
  | .getBinding name => some (.getBinding name)
  | .setBinding name oid => some (.setBinding name oid)
  | .removeBinding name => some (.removeBinding name)
  | _ => none

/-- The answer, where it is decided. -/
def outcome? : Plan → Option (Except StoreError Reply)
  | .answer result => some result
  | .confirm (.removal name wasBound) _ => some ((Scan.removal name wasBound).answer none)
  | _ => none

/-- The access that the plan comes after, where it is about names. -/
def access? : Plan → Option Access
  | .getBinding name => some (.name (.ofName name) .read)
  | .setBinding name _ => some (.name (.ofName name) .write)
  | .removeBinding name => some (.name (.ofName name) .write)
  | .confirm scan locked => some (scan.access locked)
  | _ => none

/-- Whether the plan asks for nothing that concerns names. -/
def isPlain : Plan → Bool
  | .create | .mark _ | .get _ | .set _ _ | .setMany _ _ | .remove _ => true
  | .classId _ | .classInfo _ | .nextObject _ => true
  | _ => false

/-- Whether the plan can be one of the operation. -/
def Fits (op : Operation) : Plan → Prop
  | .getBinding name => op = .getBinding name
  | .setBinding name oid => op = .setBinding name oid
  | .removeBinding name => op = .removeBinding name
  | .beginScan after => op = .nextName after
  | .nextObject after => op = .nextObject after
  | .confirm (.removal name _) _ => op = .removeBinding name
  | .confirm (.next after) _ => op = .nextName after
  | .answer result =>
    (∃ name, op = .getBinding name ∧ result = .error (.nameNotBound name)) ∨
      (∃ name oid, op = .setBinding name oid ∧ result = .ok .done) ∨
        ∃ after, op = .nextObject after
  | _ => op.name? = none ∧ ∀ after, op ≠ .nextName after

/-- Whoever asks for nothing that concerns names is about no name, and does not scan. -/
theorem nameless_of_isPlain {plan : Plan} {op : Operation} (hplain : plan.isPlain = true)
    (hfits : plan.Fits op) : op.name? = none ∧ ∀ after, op ≠ .nextName after := by
  cases plan with
  | nextObject after =>
      rw [show op = .nextObject after from hfits]
      exact ⟨rfl, by simp⟩
  | create => exact hfits
  | mark => exact hfits
  | get => exact hfits
  | set => exact hfits
  | setMany => exact hfits
  | remove => exact hfits
  | classId => exact hfits
  | classInfo => exact hfits
  | _ => simp [isPlain] at hplain

theorem name?_of_isPlain {plan : Plan} {op : Operation} (hplain : plan.isPlain = true)
    (hfits : plan.Fits op) : op.name? = none :=
  (nameless_of_isPlain hplain hfits).1

theorem fits_of_point? {plan : Plan} {op op' : Operation} (h : plan.point? = some op')
    (hfits : plan.Fits op) : op = op' := by
  cases plan <;> cases h <;> exact hfits

theorem access?_of_point? {plan : Plan} {op : Operation} (h : plan.point? = some op) :
    plan.access? = op.nameAccess? := by
  cases plan <;> cases h <;> rfl

end Plan

namespace Stage

/-- The answer, where it is decided. -/
def outcome? : Stage → Option (Except StoreError Reply)
  | .report _ plan => plan.outcome?
  | .waiting _ _ plan => plan.outcome?
  | .act plan => plan.outcome?
  | .failing e => some (.error e)
  | .ended result => some result

/-- Whether the operation can have come to the stage. -/
def Fits (op : Operation) : Stage → Prop
  | .report _ plan => plan.Fits op
  | .waiting _ _ plan => plan.Fits op
  | .act plan => plan.Fits op
  | .failing _ => True
  | .ended _ => True

/-- Nothing but the access that a plan needs is reported for it, and the plan comes afterwards. -/
def Grounded (allowed : Access → Prop) : Stage → Prop
  | .report access plan => ∀ needed, plan.access? = some needed → needed = access
  | .waiting _ access plan => ∀ needed, plan.access? = some needed → needed = access
  | .act plan => ∀ needed, plan.access? = some needed → allowed needed
  | .failing _ => True
  | .ended _ => True

theorem fits_firstStage (op : Operation) : op.firstStage.Fits op := by
  cases op <;> simp [Operation.firstStage, Fits, Plan.Fits, Operation.name?]

theorem grounded_firstStage (allowed : Access → Prop) (op : Operation) :
    op.firstStage.Grounded allowed := by
  cases op <;> simp [Operation.firstStage, Grounded, Plan.access?]

theorem outcome?_firstStage (op : Operation) : op.firstStage.outcome? = none := by
  cases op <;> rfl

end Stage

/-! ### Carrying a plan out -/

/-- What carrying a plan out may come to, and what is left of the backend. -/
inductive Acted (t : TxnId) (m : Memory) : Plan → Stage → Memory → Prop where
  /-- Only calls that concern no names fail on a backend that is open. -/
  | fails {plan : Plan} {e : StoreError} {m' : Memory} (hkeeps : m.KeepsNames t m')
    (hwhy : m.isShutDown = true ∧ (∀ name, e ≠ .nameNotBound name) ∨ plan.isPlain = true) :
    Acted t m plan (.failing e) m'
  | plain {plan : Plan} {reply : Reply} {m' : Memory} (hkeeps : m.KeepsNames t m')
    (hplain : plan.isPlain = true) : Acted t m plan (.ended (.ok reply)) m'
  | nextItem {oid : ObjectId} {rest : List ObjectId} {items : List (ObjectId × Bytes)} :
    Acted t m (.setMany (oid :: rest) items) (.report (.object oid .write) (.setMany rest items)) m
  | nextObject {after : Option ObjectId} {oid : ObjectId} :
    Acted t m (.nextObject after)
      (.report (.object oid .read) (.answer (.ok (.nextObject (some oid))))) m
  | found {name : Name} {oid : ObjectId}
    (hopen : m.isShutDown = false) (hbound : m.binding? t name = some oid) :
    Acted t m (.getBinding name) (.ended (.ok (.object oid))) m
  | missed {name : Name}
    (hopen : m.isShutDown = false) (hbound : m.binding? t name = none) :
    Acted t m (.getBinding name)
      (.report (.name (.ofPosition (m.nextName? t (some name))) .read)
        (.answer (.error (.nameNotBound name)))) m
  | rebinds {name : Name} {oid before : ObjectId}
    (hopen : m.isShutDown = false) (hbound : m.binding? t name = some before) :
    Acted t m (.setBinding name oid) (.ended (.ok .done)) (m.write t (·.writeName name (some oid)))
  | binds {name : Name} {oid : ObjectId} {m' : Memory}
    (hopen : m.isShutDown = false) (hbound : m.binding? t name = none)
    (hwrite : m' = m.write t (·.writeName name (some oid))) :
    Acted t m (.setBinding name oid)
      (.report (.name (.ofPosition (m'.nextName? t (some name))) .write) (.answer (.ok .done))) m'
  | unbinds {name : Name} {before : ObjectId} {m' : Memory}
    (hopen : m.isShutDown = false) (hbound : m.binding? t name = some before)
    (hwrite : m' = m.write t (·.writeName name none)) :
    Acted t m (.removeBinding name)
      (.report (.name (.ofPosition (m'.nextName? t (some name))) .write)
        (.confirm (.removal name true) (m'.nextName? t (some name)))) m'
  | foundUnbound {name : Name}
    (hopen : m.isShutDown = false) (hbound : m.binding? t name = none) :
    Acted t m (.removeBinding name)
      (.report (.name (.ofPosition (m.nextName? t (some name))) .read)
        (.confirm (.removal name false) (m.nextName? t (some name)))) m
  | scans {after : Option Name} (hopen : m.isShutDown = false) :
    Acted t m (.beginScan after)
      (.report (.name (.ofPosition (m.nextName? t after)) .read)
        (.confirm (.next after) (m.nextName? t after))) m
  | settles {scan : Scan} {locked : Option Name} (hopen : m.isShutDown = false)
    (hsame : m.nextName? t scan.after = locked) :
    Acted t m (.confirm scan locked) (.ofResult (scan.answer locked)) m
  | again {scan : Scan} {locked next : Option Name} (hopen : m.isShutDown = false)
    (hnext : m.nextName? t scan.after = next) (hother : next ≠ locked) :
    Acted t m (.confirm scan locked) (.report (scan.access next) (.confirm scan next)) m
  | answers {result : Except StoreError Reply} : Acted t m (.answer result) (.ofResult result) m

section Acts

variable {ρo ρn : Type} {s : Store ρo ρn Memory} {t : TxnId} {plan : Plan} {stage' : Stage}
variable {m m' : Memory} {op : Operation} {name : Name}

theorem callThen_cases {α : Type} {c : BackendCall α} {next : α → Stage}
    (h : s.callThen t c next = (stage', { s with backend := m' })) :
    (∃ a, Memory.perform c t s.backend = (.ok a, m') ∧ stage' = next a) ∨
      ∃ e, Memory.perform c t s.backend = (.error e, m') ∧ stage' = .failing e := by
  unfold Store.callThen Store.call at h
  simp only [Backend.perform] at h
  rcases hperform : Memory.perform c t s.backend with ⟨e | a, m⟩
  · rw [hperform] at h
    simp only [Prod.mk.injEq] at h
    obtain ⟨rfl, hstore⟩ := h
    obtain rfl : m = m' := congrArg Store.backend hstore
    exact Or.inr ⟨e, rfl, rfl⟩
  · rw [hperform] at h
    simp only [Prod.mk.injEq] at h
    obtain ⟨rfl, hstore⟩ := h
    obtain rfl : m = m' := congrArg Store.backend hstore
    exact Or.inl ⟨a, rfl, rfl⟩

/-- A call that concerns no names and whose answer ends the operation. -/
theorem acted_of_plain {α : Type} {c : BackendCall α} {reply : α → Reply}
    (hplain : plan.isPlain = true) (hnameless : Memory.isNameless c = true)
    (h : s.callThen t c (fun a => .ended (.ok (reply a))) = (stage', { s with backend := m' })) :
    Acted t s.backend plan stage' m' := by
  have hkeeps := Memory.keepsNames_perform hnameless t s.backend
  rcases callThen_cases h with ⟨a, hperform, rfl⟩ | ⟨e, hperform, rfl⟩
  · rw [hperform] at hkeeps
    exact .plain hkeeps hplain
  · rw [hperform] at hkeeps
    exact .fails hkeeps (Or.inr hplain)

/-- A call on names, which fails only on a backend that is shut down. -/
theorem acted_of_open {α : Type} {c : BackendCall α} {next : α → Stage} {a : α}
    (hneeds : Memory.isAlwaysAllowed c = false)
    (hopen : s.backend.performOpen t c = (.ok a, m))
    (hacted : s.backend.isShutDown = false → Acted t s.backend plan (next a) m)
    (h : s.callThen t c next = (stage', { s with backend := m' })) :
    Acted t s.backend plan stage' m' := by
  cases hshut : s.backend.isShutDown with
  | true =>
      have hrefused : Memory.perform c t s.backend =
          (.error (.illegalState "backend is shut down"), s.backend) := by
        simp [Memory.perform, hshut, hneeds]
      rcases callThen_cases h with ⟨a', hperform, -⟩ | ⟨e, hperform, rfl⟩
      · rw [hrefused] at hperform
        simp at hperform
      · rw [hrefused] at hperform
        obtain rfl := congrArg Prod.snd hperform
        obtain rfl : StoreError.illegalState "backend is shut down" = e := by
          simpa using congrArg Prod.fst hperform
        exact .fails (.refl t s.backend) (Or.inl ⟨hshut, by simp⟩)
  | false =>
      have hallowed : Memory.perform c t s.backend = (.ok a, m) := by
        simp [Memory.perform, hshut, hopen]
      rcases callThen_cases h with ⟨a', hperform, rfl⟩ | ⟨e, hperform, -⟩
      · rw [hallowed] at hperform
        simp only [Prod.mk.injEq, Except.ok.injEq] at hperform
        obtain ⟨rfl, rfl⟩ := hperform
        exact hacted hshut
      · rw [hallowed] at hperform
        simp at hperform

/-- **Carrying a plan out comes to one of the listed ends.** -/
theorem acted_of_act [Reporter ρo ObjectId] [Reporter ρn NameKey]
    (h : s.act t plan = (stage', { s with backend := m' })) :
    Acted t s.backend plan stage' m' := by
  cases plan with
  | create => exact acted_of_plain rfl rfl h
  | mark oid => exact acted_of_plain rfl rfl h
  | get oid => exact acted_of_plain rfl rfl h
  | set oid data => exact acted_of_plain rfl rfl h
  | setMany unreported items =>
      cases unreported with
      | nil => exact acted_of_plain rfl rfl h
      | cons oid rest =>
          simp only [Store.act, Prod.mk.injEq] at h
          obtain ⟨rfl, hstore⟩ := h
          obtain rfl : s.backend = m' := congrArg Store.backend hstore
          exact .nextItem
  | remove oid => exact acted_of_plain rfl rfl h
  | getBinding name =>
      cases hbound : s.backend.binding? t name with
      | some oid =>
          exact acted_of_open (a := .bound oid none) rfl
            (by simp [Memory.performOpen, Memory.getBinding, hbound]) (.found · hbound) h
      | none =>
          exact acted_of_open (a := .unbound (s.backend.nextName? t (some name))) rfl
            (by simp [Memory.performOpen, Memory.getBinding, hbound]) (.missed · hbound) h
  | setBinding name oid =>
      cases hbound : s.backend.binding? t name with
      | some before =>
          exact acted_of_open (a := .bound before none) rfl
            (by simp [Memory.performOpen, Memory.setBinding, hbound]) (.rebinds · hbound) h
      | none =>
          exact acted_of_open
            (a := .unbound ((s.backend.write t (·.writeName name (some oid))).nextName? t (some name)))
            rfl (by simp [Memory.performOpen, Memory.setBinding, hbound]) (.binds · hbound rfl) h
  | removeBinding name =>
      cases hbound : s.backend.binding? t name with
      | some before =>
          exact acted_of_open
            (a := .bound before ((s.backend.write t (·.writeName name none)).nextName? t (some name)))
            rfl (by simp [Memory.performOpen, Memory.removeBinding, hbound]) (.unbinds · hbound rfl) h
      | none =>
          exact acted_of_open (a := .unbound (s.backend.nextName? t (some name))) rfl
            (by simp [Memory.performOpen, Memory.removeBinding, hbound]) (.foundUnbound · hbound) h
  | beginScan after => exact acted_of_open (a := s.backend.nextName? t after) rfl rfl (.scans ·) h
  | confirm scan locked =>
      refine acted_of_open (a := s.backend.nextName? t scan.after) rfl rfl ?_ h
      intro hopen
      unfold NameRound.ofAnswer
      by_cases hsame : s.backend.nextName? t scan.after = locked
      · simp only [if_pos hsame]
        exact .settles hopen hsame
      · simp only [if_neg hsame]
        exact .again hopen rfl hsame
  | classId info => exact acted_of_plain rfl rfl h
  | classInfo id => exact acted_of_plain rfl rfl h
  | nextObject after =>
      cases hnext : s.backend.nextObject? t after with
      | none =>
          exact acted_of_open (a := none) rfl (by simp [Memory.performOpen, hnext])
            (fun _ => .plain (.refl t s.backend) rfl) h
      | some oid =>
          exact acted_of_open (a := some oid) rfl (by simp [Memory.performOpen, hnext])
            (fun _ => .nextObject) h
  | answer result =>
      simp only [Store.act, Prod.mk.injEq] at h
      obtain ⟨rfl, hstore⟩ := h
      obtain rfl : s.backend = m' := congrArg Store.backend hstore
      exact .answers

end Acts

/-! ### What follows for the names -/

/-- A transaction has read or written a name: its answer is decided, and it sees what it wrote. -/
structure ActsOnName (op : Operation) (name : Name) (t : TxnId) (m : Memory) (stage' : Stage)
    (m' : Memory) : Prop where
  outcome : stage'.outcome? = some (op.effect (m.binding? t name)).1
  view : m'.binding? t = Function.update (m.binding? t) name (op.effect (m.binding? t name)).2
  /-- What is written anew is accessed to write. -/
  written : ∀ name', ((m'.writes t).names.get? name').isSome = true →
    ((m.writes t).names.get? name').isSome = true ∨
      op.nameAccess? = some (.name (.ofName name') .write)

namespace ActsOnName

variable {t : TxnId} {m : Memory} {op : Operation} {name : Name} {stage' : Stage}

/-- An operation that leaves what was bound has only read the name. -/
theorem of_read (houtcome : stage'.outcome? = some (op.effect (m.binding? t name)).1)
    (hsame : (op.effect (m.binding? t name)).2 = m.binding? t name) :
    ActsOnName op name t m stage' m where
  outcome := houtcome
  view := by
    rw [hsame, Function.update_eq_self]
  written := fun _ => Or.inl

/-- Any other has written it. -/
theorem of_write (houtcome : stage'.outcome? = some (op.effect (m.binding? t name)).1)
    {oid : Option ObjectId} (hwritten : (op.effect (m.binding? t name)).2 = oid)
    (haccess : op.nameAccess? = some (.name (.ofName name) .write)) :
    ActsOnName op name t m stage' (m.write t (·.writeName name oid)) where
  outcome := houtcome
  view := by
    funext name'
    rw [Memory.binding?_writeName, hwritten]
    by_cases hname : name = name'
    · rw [if_pos ⟨rfl, hname⟩, hname, Function.update_self]
    · rw [if_neg fun h => hname h.2, Function.update_of_ne (Ne.symm hname)]
  written := by
    intro name' hname'
    rw [Memory.writes_write, if_pos rfl] at hname'
    unfold WriteSet.writeName at hname'
    simp only [FinMap.get?_insert] at hname'
    split at hname'
    · rename_i hname
      rw [← hname]
      exact Or.inr haccess
    · exact Or.inl hname'

end ActsOnName

namespace Acted

variable {t : TxnId} {plan : Plan} {stage' : Stage} {m m' : Memory} {op : Operation} {name : Name}

/-- The next stage fits the same operation, -/
theorem fits (h : Acted t m plan stage' m') (hfits : plan.Fits op) : stage'.Fits op := by
  cases h with
  | nextObject => exact Or.inr (Or.inr ⟨_, hfits⟩)
  | missed => exact Or.inl ⟨_, hfits, rfl⟩
  | binds => exact Or.inr (Or.inl ⟨_, _, hfits, rfl⟩)
  | @settles scan locked =>
      cases hresult : scan.answer locked <;> exact trivial
  | @answers result => cases result <;> exact trivial
  | @again scan => cases scan <;> exact hfits
  | _ => first | exact hfits | exact trivial

/-- and whatever has to be locked for it is reported first. -/
theorem grounded (h : Acted t m plan stage' m') (allowed : Access → Prop) :
    stage'.Grounded allowed := by
  cases h with
  | @settles scan locked => cases hresult : scan.answer locked <;> exact trivial
  | @answers result => cases result <;> exact trivial
  | _ => first | exact trivial | (intro needed hneeded; cases hneeded <;> rfl)

theorem ne_act (h : Acted t m plan stage' m') (plan' : Plan) : stage' ≠ .act plan' := by
  cases h with
  | @settles scan locked => cases scan.answer locked <;> simp [Stage.ofResult]
  | @answers result => cases result <;> simp [Stage.ofResult]
  | _ => simp

/-- Carrying a point operation out is acting on its name. -/
theorem point (h : Acted t m plan stage' m') (hplan : plan.point? = some op)
    (hname : op.name? = some name) (hopen : m.isShutDown = false) :
    ActsOnName op name t m stage' m' := by
  cases h with
  | fails _ hwhy =>
      rcases hwhy with ⟨hshut, -⟩ | hplain
      · rw [hopen] at hshut
        exact absurd hshut (by simp)
      · cases plan <;> simp [Plan.isPlain, Plan.point?] at hplain hplan
  | plain _ hplain => cases plan <;> simp [Plan.isPlain, Plan.point?] at hplain hplan
  | found _ hbound =>
      cases hplan
      cases hname
      exact .of_read (by simp [hbound, Operation.effect, Stage.outcome?])
        (by simp [hbound, Operation.effect])
  | missed _ hbound =>
      cases hplan
      cases hname
      exact .of_read (by simp [hbound, Operation.effect, Stage.outcome?, Plan.outcome?])
        (by simp [hbound, Operation.effect])
  | rebinds _ hbound =>
      cases hplan
      cases hname
      exact .of_write rfl rfl rfl
  | binds _ hbound hwrite =>
      cases hplan
      cases hname
      subst hwrite
      exact .of_write rfl rfl rfl
  | unbinds _ hbound hwrite =>
      cases hplan
      cases hname
      subst hwrite
      exact .of_write
        (by simp [hbound, Operation.effect, Stage.outcome?, Plan.outcome?, Scan.answer])
        (by simp [hbound, Operation.effect]) rfl
  | foundUnbound _ hbound =>
      cases hplan
      cases hname
      exact .of_read
        (by simp [hbound, Operation.effect, Stage.outcome?, Plan.outcome?, Scan.answer])
        (by simp [hbound, Operation.effect])
  | _ => cases hplan

theorem others (h : Acted t m plan stage' m') {u : TxnId} (hu : t ≠ u) :
    m'.pending.get? u = m.pending.get? u := by
  cases h with
  | fails hkeeps => exact hkeeps.others u hu
  | plain hkeeps => exact hkeeps.others u hu
  | rebinds => exact Memory.pending_write_of_ne hu
  | binds _ _ hwrite => rw [hwrite, Memory.pending_write_of_ne hu]
  | unbinds _ _ hwrite => rw [hwrite, Memory.pending_write_of_ne hu]
  | _ => rfl

theorem names (h : Acted t m plan stage' m') : m'.names = m.names := by
  cases h with
  | fails hkeeps => exact hkeeps.names
  | plain hkeeps => exact hkeeps.names
  | binds _ _ hwrite => rw [hwrite]; rfl
  | unbinds _ _ hwrite => rw [hwrite]; rfl
  | _ => rfl

theorem isShutDown (h : Acted t m plan stage' m') : m'.isShutDown = m.isShutDown := by
  cases h with
  | fails hkeeps => exact hkeeps.isShutDown
  | plain hkeeps => exact hkeeps.isShutDown
  | binds _ _ hwrite => rw [hwrite]; rfl
  | unbinds _ _ hwrite => rw [hwrite]; rfl
  | _ => rfl

theorem keepsNames (h : Acted t m plan stage' m') (hplan : plan.point? = none) :
    m.KeepsNames t m' := by
  cases h with
  | fails hkeeps => exact hkeeps
  | plain hkeeps => exact hkeeps
  | found => cases hplan
  | missed => cases hplan
  | rebinds => cases hplan
  | binds => cases hplan
  | unbinds => cases hplan
  | foundUnbound => cases hplan
  | _ => exact .refl t m

theorem outcome (h : Acted t m plan stage' m') (hopen : m.isShutDown = false)
    {result : Except StoreError Reply} (hresult : plan.outcome? = some result) :
    stage'.outcome? = some result := by
  cases h with
  | fails _ hwhy =>
      rcases hwhy with ⟨hshut, -⟩ | hplain
      · rw [hopen] at hshut
        exact absurd hshut (by simp)
      · cases plan <;> simp [Plan.isPlain, Plan.outcome?] at hplain hresult
  | plain _ hplain => cases plan <;> simp [Plan.isPlain, Plan.outcome?] at hplain hresult
  | @settles scan locked =>
      cases scan with
      | removal name wasBound =>
          cases hresult
          cases wasBound <;> rfl
      | next after => cases hresult
  | again =>
      rename_i scan locked next _ _ _
      cases scan with
      | removal name wasBound => exact hresult
      | next after => cases hresult
  | @answers result' =>
      cases hresult
      cases result <;> rfl
  | _ => cases hresult

end Acted

end ObjectStore
