/-
What a transaction sees at the memory backend.

A view is a state of all objects and names.  The overlay keeps the committed view and, for each
transaction, the list of its writes that are not committed; it learns of them from what was asked and
answered.  The transaction's view is the committed one with its own writes carried out.

The main statement is `overlay_refinement`: after every dialogue of any number of transactions with
the backend, each of them sees its view of the overlay, the answers to look-ups and to questions for
the next key are read off that view, and a call that commits nothing changes no other view.
-/
import Mathlib.Data.List.Induction
import Mathlib.Logic.Function.Basic
import ObjectStore.Proofs.Backend.Buffer
import ObjectStore.Proofs.Naming.Order
import ObjectStore.Proofs.Store.Ending

namespace ObjectStore

instance : IsStrictTotalOrder ObjectId (· < ·) where
  irrefl := fun a => Nat.lt_irrefl a.val
  trans := fun a b c (h : a.val < b.val) (h' : b.val < c.val) => show a.val < c.val by omega
  trichotomous := by
    rintro ⟨a⟩ ⟨b⟩ hnot hnot'
    have hle : ¬ a < b := hnot
    have hge : ¬ b < a := hnot'
    exact congrArg ObjectId.mk (by omega)

/-! ### Views -/

/-- A state of all objects and names. -/
@[ext]
structure View where
  objects : ObjectId → Option Bytes
  names : Name → Option ObjectId

namespace View

/-- Nothing exists and nothing is bound. -/
def empty : View := ⟨fun _ => none, fun _ => none⟩

/-- The view with writes carried out in order. -/
def after (v : View) (writes : List Write) : View where
  objects oid := Write.objectAfter oid (v.objects oid) writes
  names name := Write.bindingAfter name (v.names name) writes

/-- Whether an object exists. -/
def Has (v : View) (oid : ObjectId) : Prop := (v.objects oid).isSome = true

/-- Whether a name is bound. -/
def Binds (v : View) (name : Name) : Prop := (v.names name).isSome = true

/-- The contents of an object, or the failure that there is none. -/
def require (v : View) (oid : ObjectId) : Except StoreError Bytes :=
  match v.objects oid with
  | some data => .ok data
  | none => .error (.objectNotFound oid)

/-- What a name is bound to; if it is not, `next` is told as well. -/
def lookUp (v : View) (name : Name) (next : Option Name) : Binding :=
  match v.names name with
  | some oid => .bound oid none
  | none => .unbound next

/-- What a name is bound to, with `next` in any case. -/
def lookUpBoth (v : View) (name : Name) (next : Option Name) : Binding :=
  match v.names name with
  | some oid => .bound oid next
  | none => .unbound next

/-- The answer to a call as it is read off a view.  About calls that do not look anything up it says
nothing. -/
def Answers (v : View) : {α : Type} → BackendCall α → Except StoreError α → Prop
  | _, .get oid, result => result = v.require oid
  | _, .mark oid, result => result = (v.require oid).map fun _ => ()
  | _, .remove oid, result => result = (v.require oid).map fun _ => ()
  | _, .getBinding name, result =>
    ∃ next, IsNext v.Binds (some name) next ∧ result = .ok (v.lookUp name next)
  | _, .setBinding name _, result =>
    ∃ next, IsNext v.Binds (some name) next ∧ result = .ok (v.lookUp name next)
  | _, .removeBinding name, result =>
    ∃ next, IsNext v.Binds (some name) next ∧ result = .ok (v.lookUpBoth name next)
  | _, .nextName bound, result => ∃ next, IsNext v.Binds bound next ∧ result = .ok next
  | _, .nextObject bound, result => ∃ next, IsNext v.Has bound next ∧ result = .ok next
  | _, _, _ => True

end View

/-- Whether a call looks up an object, a name or a next key. -/
def BackendCall.isLookUp {α : Type} : BackendCall α → Bool
  | .get _ | .mark _ | .remove _ | .nextObject _ => true
  | .getBinding _ | .setBinding _ _ | .removeBinding _ | .nextName _ => true
  | _ => false

/-- A view leaves no choice of the answer. -/
theorem View.Answers.unique {v : View} {α : Type} {c : BackendCall α}
    {result result' : Except StoreError α} (h : v.Answers c result) (h' : v.Answers c result')
    (hlook : c.isLookUp = true) : result = result' := by
  cases c with
  | get => exact h.trans h'.symm
  | mark => exact h.trans h'.symm
  | remove => exact h.trans h'.symm
  | getBinding | setBinding | removeBinding | nextName | nextObject =>
      obtain ⟨next, hnext, rfl⟩ := h
      obtain ⟨next', hnext', rfl⟩ := h'
      rw [hnext.unique hnext']
  | _ => cases hlook

/-- What a transaction sees. -/
def Memory.view (m : Memory) (t : TxnId) : View := ⟨m.object? t, m.binding? t⟩

/-! ### The overlay -/

/-- A call of a transaction, and its answer. -/
structure Exchange where
  {α : Type}
  call : BackendCall α
  t : TxnId
  answer : Except StoreError α

/-- The committed view, and what each transaction has written over it, the oldest write first. -/
structure Overlay where
  committed : View
  buffered : TxnId → List Write

namespace Overlay

/-- Nothing is committed and nothing written. -/
def empty : Overlay := ⟨.empty, fun _ => []⟩

/-- The committed view, overlaid by what the transaction has written. -/
def view (o : Overlay) (t : TxnId) : View := o.committed.after (o.buffered t)

/-- Adds writes of a transaction. -/
def write (o : Overlay) (t : TxnId) (writes : List Write) : Overlay :=
  { o with buffered := Function.update o.buffered t (o.buffered t ++ writes) }

/-- Forgets what a transaction has written. -/
def discard (o : Overlay) (t : TxnId) : Overlay :=
  { o with buffered := Function.update o.buffered t [] }

/-- Makes what a transaction sees the committed view. -/
def commit (o : Overlay) (t : TxnId) : Overlay := { o.discard t with committed := o.view t }

/-- Learns of a call and its answer. -/
def hear (o : Overlay) : Exchange → Overlay
  | ⟨.prepareAndCommit, t, _⟩ => o.commit t
  | ⟨.commit, t, .ok _⟩ => o.commit t
  | ⟨.commit, t, .error _⟩ => o.discard t
  | ⟨.abort, t, _⟩ => o.discard t
  | ⟨.prepare, _, _⟩ => o
  | ⟨call, t, answer⟩ => o.write t (call.writes answer)

/-- What is known after some calls and their answers. -/
def ofExchanges (said : List Exchange) : Overlay := said.foldl hear empty

end Overlay

/-! ### Dialogues -/

/-- A call that a transaction makes. -/
structure Request where
  {α : Type}
  call : BackendCall α
  t : TxnId

/-- The backend, and what it has been asked and has answered. -/
structure Dialogue where
  memory : Memory
  said : List Exchange

namespace Dialogue

/-- Nothing has been asked of an empty backend. -/
def new : Dialogue := ⟨.empty, []⟩

/-- Makes one call. -/
def ask (d : Dialogue) (r : Request) : Dialogue where
  memory := (d.memory.perform r.call r.t).2
  said := d.said ++ [⟨r.call, r.t, (d.memory.perform r.call r.t).1⟩]

/-- Makes calls one after another, starting with an empty backend. -/
def run (requests : List Request) : Dialogue := requests.foldl ask new

theorem run_concat (requests : List Request) (r : Request) :
    run (requests ++ [r]) = (run requests).ask r := by
  simp [run]

end Dialogue

/-- Whether a call shuts the backend down. -/
def BackendCall.isShutdown {α : Type} : BackendCall α → Bool
  | .shutdown => true
  | _ => false

/-- Whether a call can commit something. -/
def BackendCall.isCommit {α : Type} : BackendCall α → Bool
  | .commit | .prepareAndCommit => true
  | _ => false

namespace Memory

variable {m m' : Memory} {t u : TxnId} {o : Overlay}

/-! ### Calls of others -/

/-- What a transaction sees depends on what is committed and on what it has written itself. -/
theorem view_congr (hobjects : m'.objects = m.objects) (hnames : m'.names = m.names)
    (hwrites : (m'.writes u).unprepared = (m.writes u).unprepared) : m'.view u = m.view u := by
  ext1
  · funext oid
    show m'.objects.under? (m'.writes u).unprepared.objects oid =
      m.objects.under? (m.writes u).unprepared.objects oid
    rw [hobjects, hwrites]
  · funext name
    show m'.names.under? (m'.writes u).unprepared.names name =
      m.names.under? (m.writes u).unprepared.names name
    rw [hnames, hwrites]

/-- A call adds nothing to the writes of others, and does not shut the backend down. -/
theorem others_perform {α : Type} {c : BackendCall α} (hdata : c.isData = true) :
    (∀ u, t ≠ u → (perform c t m).2.pending.get? u = m.pending.get? u) ∧
      (perform c t m).2.isShutDown = m.isShutDown := by
  by_cases hnameless : isNameless c = true
  · have hkeeps := keepsNames_perform hnameless t m
    exact ⟨hkeeps.others, hkeeps.isShutDown⟩
  · have hwrites : ∀ f, (∀ u, t ≠ u → (m.write t f).pending.get? u = m.pending.get? u) ∧
        (m.write t f).isShutDown = m.isShutDown :=
      fun f => ⟨fun u hu => pending_write_of_ne hu, rfl⟩
    unfold perform
    split
    · exact ⟨fun _ _ => rfl, rfl⟩
    · cases c with
      | setBinding name oid =>
          simp only [performOpen, setBinding]
          split <;> exact hwrites _
      | removeBinding name =>
          simp only [performOpen, removeBinding]
          split
          · exact hwrites _
          · exact ⟨fun _ _ => rfl, rfl⟩
      | _ => simp [isNameless, BackendCall.isData] at hnameless hdata

theorem prepare_keeps (m : Memory) (t : TxnId) :
    (m.prepare t).2.objects = m.objects ∧ (m.prepare t).2.names = m.names ∧
      ∀ u, ((m.prepare t).2.writes u).unprepared = (m.writes u).unprepared := by
  unfold prepare
  split
  · rename_i hempty
    refine ⟨rfl, rfl, fun u => ?_⟩
    rw [writes_discard]
    split
    · rename_i htu
      subst htu
      obtain ⟨hobjects, hnames⟩ := Bool.and_eq_true_iff.mp hempty
      -- An empty write set is the same as none.
      rcases hw : m.writes t with ⟨⟨objects, _⟩, ⟨names, _⟩, prepared⟩
      rw [hw] at hobjects hnames
      obtain rfl := List.isEmpty_iff.mp hobjects
      obtain rfl := List.isEmpty_iff.mp hnames
      rfl
    · rfl
  · refine ⟨rfl, rfl, fun u => ?_⟩
    rw [writes_write]
    split
    · rename_i htu
      subst htu
      rfl
    · rfl

/-- **A call that commits nothing changes nothing that others see.** -/
theorem view_perform_of_ne {α : Type} {c : BackendCall α} (hstays : c.isShutdown = false)
    (hcommit : c.isCommit = false) (hopen : m.isShutDown = false) (hu : t ≠ u) :
    (perform c t m).2.view u = m.view u := by
  cases hdata : c.isData with
  | true =>
      have hbuffers : Buffers t (c.writes (perform c t m).1) m (perform c t m).2 :=
        buffers_perform hdata rfl
      have hsame := writes_congr ((others_perform (m := m) hdata).1 u hu)
      exact view_congr hbuffers.objects hbuffers.names (congrArg WriteSet.unprepared hsame)
  | false =>
      rw [perform_of_open hopen]
      cases c with
      | prepare =>
          obtain ⟨hobjects, hnames, hwrites⟩ := m.prepare_keeps t
          exact view_congr hobjects hnames (hwrites u)
      | abort =>
          have hsame : (m.discard t).writes u = m.writes u := by
            rw [writes_discard, if_neg hu]
          exact view_congr rfl rfl (congrArg WriteSet.unprepared hsame)
      | shutdown => cases hstays
      | commit => cases hcommit
      | prepareAndCommit => cases hcommit
      | _ => cases hdata

/-! ### Answers -/

theorem require_eq (m : Memory) (t : TxnId) (oid : ObjectId) :
    m.require t oid = (m.view t).require oid := rfl

theorem isNext_nextName? (m : Memory) (t : TxnId) (bound : Option Name) :
    IsNext (m.view t).Binds bound (m.nextName? t bound) :=
  (isNext_leastAfter bound (m.names.keysUnder (m.writes t).names)).congr
    fun _ _ => FinMap.mem_keysUnder.symm

theorem isNext_nextObject? (m : Memory) (t : TxnId) (bound : Option ObjectId) :
    IsNext (m.view t).Has bound (m.nextObject? t bound) :=
  (isNext_leastAfter bound (m.objects.keysUnder (m.writes t).objects)).congr
    fun _ _ => FinMap.mem_keysUnder.symm

theorem isNext_nextName?_write (m : Memory) (t : TxnId) (name : Name) (oid : Option ObjectId) :
    IsNext (m.view t).Binds (some name)
      ((m.write t (·.writeName name oid)).nextName? t (some name)) := by
  refine (isNext_nextName? _ t (some name)).congr fun other hbeyond => ?_
  have hne : ¬ (t = t ∧ name = other) := fun h => Name.ne_of_lt (hbeyond name rfl) h.2
  show (m.binding? t other).isSome = true ↔
    ((m.write t (·.writeName name oid)).binding? t other).isSome = true
  rw [binding?_writeName, if_neg hne]

theorem answers_setBinding (m : Memory) (t : TxnId) (name : Name) (oid : ObjectId) :
    (m.view t).Answers (.setBinding name oid) (.ok (m.setBinding t name oid).1) := by
  refine ⟨_, m.isNext_nextName?_write t name (some oid), ?_⟩
  simp only [setBinding, View.lookUp, view]
  cases m.binding? t name <;> rfl

theorem answers_removeBinding (m : Memory) (t : TxnId) (name : Name) :
    (m.view t).Answers (.removeBinding name) (.ok (m.removeBinding t name).1) := by
  unfold removeBinding
  split
  · rename_i oid hbound
    refine ⟨_, m.isNext_nextName?_write t name none, ?_⟩
    simp only [View.lookUpBoth, view, hbound]
  · rename_i hfree
    refine ⟨_, m.isNext_nextName? t (some name), ?_⟩
    simp only [View.lookUpBoth, view, hfree]

/-- **The answers of an open backend are read off what the transaction sees.** -/
theorem answers_perform {α : Type} (c : BackendCall α) (hopen : m.isShutDown = false) :
    (m.view t).Answers c (perform c t m).1 := by
  rw [perform_of_open hopen]
  cases c with
  | get oid => exact m.require_eq t oid
  | mark oid => exact congrArg (Except.map fun _ => ()) (m.require_eq t oid)
  | remove oid =>
      show (m.remove t oid).1 = ((m.view t).require oid).map fun _ => ()
      rw [← m.require_eq t oid]
      unfold remove
      cases m.require t oid <;> rfl
  | getBinding name =>
      refine ⟨_, m.isNext_nextName? t (some name), ?_⟩
      cases hbinding : m.binding? t name <;>
        simp [performOpen, getBinding, View.lookUp, view, hbinding]
  | setBinding name oid => exact m.answers_setBinding t name oid
  | removeBinding name => exact m.answers_removeBinding t name
  | nextName bound => exact ⟨_, m.isNext_nextName? t bound, rfl⟩
  | nextObject bound => exact ⟨_, m.isNext_nextObject? t bound, rfl⟩
  | _ => trivial

/-! ### The backend and the overlay -/

/-- The backend holds what the overlay knows. -/
structure Shows (m : Memory) (o : Overlay) : Prop where
  isOpen : m.isShutDown = false
  objects : ∀ oid, m.objects.get? oid = o.committed.objects oid
  names : ∀ name, m.names.get? name = o.committed.names name
  writes : ∀ t, (m.writes t).unprepared = WriteSet.empty.recordAll (o.buffered t)

namespace Shows

theorem new : Shows .empty .empty := ⟨rfl, fun _ => rfl, fun _ => rfl, fun _ => rfl⟩

theorem object?_eq (h : Shows m o) (t : TxnId) (oid : ObjectId) :
    m.object? t oid = (o.view t).objects oid := by
  show m.objects.under? (m.writes t).unprepared.objects oid = _
  rw [h.writes t, WriteSet.object?_recordAll]
  exact congrArg (Write.objectAfter oid · (o.buffered t)) (h.objects oid)

theorem binding?_eq (h : Shows m o) (t : TxnId) (name : Name) :
    m.binding? t name = (o.view t).names name := by
  show m.names.under? (m.writes t).unprepared.names name = _
  rw [h.writes t, WriteSet.binding?_recordAll]
  exact congrArg (Write.bindingAfter name · (o.buffered t)) (h.names name)

/-- What a transaction sees is its view of the overlay. -/
theorem view_eq (h : Shows m o) (t : TxnId) : m.view t = o.view t := by
  ext1
  · funext oid
    exact h.object?_eq t oid
  · funext name
    exact h.binding?_eq t name

/-- To forget the writes of a transaction. -/
theorem discard (h : Shows m o) (t : TxnId) : Shows (m.discard t) (o.discard t) where
  isOpen := h.isOpen
  objects := h.objects
  names := h.names
  writes := by
    intro u
    rw [writes_discard]
    by_cases htu : t = u
    · subst htu
      simp [Overlay.discard, WriteSet.unprepared, WriteSet.recordAll, WriteSet.empty]
    · rw [if_neg htu, h.writes u]
      simp [Overlay.discard, Function.update_of_ne (Ne.symm htu)]

/-- To make what a transaction sees the committed state. -/
theorem commit (h : Shows m o) (hwrites : ∀ u, m'.writes u = (m.discard t).writes u)
    (hopen : m'.isShutDown = m.isShutDown) (hobjects : ∀ oid, m'.objects.get? oid = m.object? t oid)
    (hnames : ∀ name, m'.names.get? name = m.binding? t name) : Shows m' (o.commit t) where
  isOpen := hopen.trans h.isOpen
  objects := fun oid => (hobjects oid).trans (h.object?_eq t oid)
  names := fun name => (hnames name).trans (h.binding?_eq t name)
  writes := by
    intro u
    rw [hwrites u]
    exact (h.discard t).writes u

theorem write {α : Type} {c : BackendCall α} (h : Shows m o) (hdata : c.isData = true) :
    Shows (perform c t m).2 (o.write t (c.writes (perform c t m).1)) := by
  have hbuffers : Buffers t (c.writes (perform c t m).1) m (perform c t m).2 :=
    buffers_perform hdata rfl
  obtain ⟨hothers, hshut⟩ := others_perform (m := m) (t := t) hdata
  refine ⟨hshut.trans h.isOpen, fun oid => ?_, fun name => ?_, fun u => ?_⟩
  · rw [hbuffers.objects]
    exact h.objects oid
  · rw [hbuffers.names]
    exact h.names name
  · by_cases htu : t = u
    · subst htu
      rw [hbuffers.writes, WriteSet.unprepared_recordAll, h.writes t, ← WriteSet.recordAll_append]
      simp [Overlay.write]
    · rw [writes_congr (hothers u htu), h.writes u]
      simp [Overlay.write, Function.update_of_ne (Ne.symm htu)]

theorem performCommit (h : Shows m o) (t : TxnId) :
    Shows (m.commit t).2 (o.hear ⟨.commit, t, (m.commit t).1⟩) := by
  unfold Memory.commit
  cases hpending : m.pending.get? t with
  | none =>
      refine h.commit (fun u => ?_) rfl (object?_of_pending_eq_none hpending)
        (binding?_of_pending_eq_none hpending)
      show m.writes u = (m.discard t).writes u
      rw [writes_discard]
      split
      · rename_i htu
        rw [← htu, writes_of_pending_eq_none hpending]
      · rfl
  | some w =>
      have hwrites := writes_of_pending hpending
      simp only
      split
      · refine h.commit (fun _ => rfl) rfl (fun oid => ?_) (fun name => ?_)
        · rw [← hwrites]
          exact m.objects_apply_writes t oid
        · rw [← hwrites]
          exact m.names_apply_writes t name
      · exact h.discard t

/-- **Every call keeps the backend to the overlay.** -/
theorem hear {α : Type} (h : Shows m o) (c : BackendCall α) (hstays : c.isShutdown = false) :
    Shows (perform c t m).2 (o.hear ⟨c, t, (perform c t m).1⟩) := by
  cases hdata : c.isData with
  | true =>
      have hheard : o.hear ⟨c, t, (perform c t m).1⟩ =
          o.write t (c.writes (perform c t m).1) := by
        cases c <;> first | rfl | cases hdata
      rw [hheard]
      exact h.write hdata
  | false =>
      rw [perform_of_open h.isOpen]
      cases c with
      | prepare =>
          obtain ⟨hobjects, hnames, hwrites⟩ := m.prepare_keeps t
          refine ⟨?_, fun oid => ?_, fun name => ?_, fun u => (hwrites u).trans (h.writes u)⟩
          · show (m.prepare t).2.isShutDown = false
            unfold prepare
            split <;> exact h.isOpen
          · exact (congrArg (FinMap.get? · oid) hobjects).trans (h.objects oid)
          · exact (congrArg (FinMap.get? · name) hnames).trans (h.names name)
      | commit => exact h.performCommit t
      | prepareAndCommit =>
          exact h.commit (fun _ => rfl) rfl (m.objects_apply_writes t) (m.names_apply_writes t)
      | abort => exact h.discard t
      | shutdown => cases hstays
      | _ => cases hdata

theorem run (requests : List Request) (hstays : ∀ r ∈ requests, r.call.isShutdown = false) :
    Shows (Dialogue.run requests).memory (.ofExchanges (Dialogue.run requests).said) := by
  induction requests using List.reverseRecOn with
  | nil => exact new
  | append_singleton requests r ih =>
      have hbefore := ih fun r' hr' => hstays r' (List.mem_append_left [r] hr')
      rw [Dialogue.run_concat]
      simp only [Dialogue.ask, Overlay.ofExchanges, List.foldl_append, List.foldl_cons,
        List.foldl_nil]
      exact hbefore.hear r.call (hstays r (by simp))

end Shows

/--
**The backend refines the overlay.**  Any number of transactions may have made any calls in any order,
as long as nobody has shut the backend down.  Then what is committed is the committed view of the
overlay, which knows nothing but what has been asked and answered, and each transaction sees that view
under its own writes.  A call that looks something up is answered with what its transaction sees; and
unless a call is a commit, no other transaction sees anything else after it.
-/
theorem overlay_refinement (requests : List Request)
    (hstays : ∀ r ∈ requests, r.call.isShutdown = false) {α : Type} (c : BackendCall α) (t : TxnId)
    (hcall : c.isShutdown = false) :
    let m := (Dialogue.run requests).memory
    let o := Overlay.ofExchanges (Dialogue.run requests).said
    (∀ oid, m.objects.get? oid = o.committed.objects oid) ∧
      (∀ name, m.names.get? name = o.committed.names name) ∧
        (∀ u, m.view u = o.view u) ∧
          (o.view t).Answers c (m.perform c t).1 ∧
            (c.isLookUp = true → ∀ result, (o.view t).Answers c result → result = (m.perform c t).1) ∧
            (c.isCommit = false → ∀ u, t ≠ u → (m.perform c t).2.view u = o.view u) := by
  intro m o
  have hshows : Shows m o := Shows.run requests hstays
  have hanswers : (o.view t).Answers c (m.perform c t).1 := by
    rw [← hshows.view_eq t]
    exact answers_perform c hshows.isOpen
  refine ⟨hshows.objects, hshows.names, hshows.view_eq, hanswers, fun hlook result hresult => ?_,
    fun hcommit u hu => ?_⟩
  · exact hresult.unique hanswers hlook
  · rw [view_perform_of_ne hcall hcommit hshows.isOpen hu]
    exact hshows.view_eq u

/-- One transaction binds `a`, `b` and `c` and commits; it then removes `b`, while another one binds `b`
anew and removes `c`. -/
def twoSights : List Request :=
  [⟨.setBinding ⟨"a"⟩ ⟨1⟩, ⟨1⟩⟩, ⟨.setBinding ⟨"b"⟩ ⟨2⟩, ⟨1⟩⟩, ⟨.setBinding ⟨"c"⟩ ⟨3⟩, ⟨1⟩⟩,
    ⟨.prepareAndCommit, ⟨1⟩⟩, ⟨.removeBinding ⟨"b"⟩, ⟨1⟩⟩, ⟨.setBinding ⟨"b"⟩ ⟨4⟩, ⟨2⟩⟩,
    ⟨.removeBinding ⟨"c"⟩, ⟨2⟩⟩]

/-- The one sees `c` come next after `a`, and the other sees nothing after its own `b`. -/
theorem overlay_refinement_twoSights :
    (∀ r ∈ twoSights, r.call.isShutdown = false) ∧
      ((Overlay.ofExchanges (Dialogue.run twoSights).said).view ⟨1⟩).Answers (.nextName (some ⟨"a"⟩))
        (.ok (some ⟨"c"⟩)) ∧
      ((Overlay.ofExchanges (Dialogue.run twoSights).said).view ⟨2⟩).Answers (.removeBinding ⟨"b"⟩)
        (.ok (.bound ⟨4⟩ none)) := by
  have hstays : ∀ r ∈ twoSights, r.call.isShutdown = false := by decide
  have hone := overlay_refinement twoSights hstays (.nextName (some ⟨"a"⟩)) ⟨1⟩ rfl
  have htwo := overlay_refinement twoSights hstays (.removeBinding ⟨"b"⟩) ⟨2⟩ rfl
  exact ⟨hstays, hone.2.2.2.1, htwo.2.2.2.1⟩

end Memory

end ObjectStore
