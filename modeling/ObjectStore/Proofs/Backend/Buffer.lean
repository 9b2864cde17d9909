/-
What calls of the memory backend write.

A call of a transaction may add writes to those that the transaction has buffered.  `BackendCall.writes`
says which, by the call and its answer, and `Memory.buffers_perform` that this is all that becomes of
the buffered writes, and that nothing is committed; calls that end a transaction are another matter.
A batch that fails has written what comes before the object that was not found.

What objects and names come to when writes are carried out is found by going through the writes in
order: the last write of a key is the one that counts.
-/
import ObjectStore.Proofs.Backend.Names

namespace ObjectStore

/-- One write of an object or of a binding; a write without a value is a removal. -/
inductive Write where
  | object (oid : ObjectId) (data : Option Bytes)
  | name (name : Name) (oid : Option ObjectId)
  deriving DecidableEq

namespace Write

/-- The contents of an object after a write. -/
def object? (oid : ObjectId) (before : Option Bytes) : Write → Option Bytes
  | object oid' data => if oid' = oid then data else before
  | name _ _ => before

/-- What a name is bound to after a write. -/
def binding? (name : Name) (before : Option ObjectId) : Write → Option ObjectId
  | object _ _ => before
  | .name name' oid => if name' = name then oid else before

/-- The contents of an object after writes in this order. -/
def objectAfter (oid : ObjectId) (before : Option Bytes) (writes : List Write) : Option Bytes :=
  writes.foldl (object? oid) before

/-- What a name is bound to after writes in this order. -/
def bindingAfter (name : Name) (before : Option ObjectId) (writes : List Write) : Option ObjectId :=
  writes.foldl (binding? name) before

theorem objectAfter_append (oid : ObjectId) (before : Option Bytes) (writes writes' : List Write) :
    objectAfter oid before (writes ++ writes') =
      objectAfter oid (objectAfter oid before writes) writes' :=
  List.foldl_append

theorem bindingAfter_append (name : Name) (before : Option ObjectId) (writes writes' : List Write) :
    bindingAfter name before (writes ++ writes') =
      bindingAfter name (bindingAfter name before writes) writes' :=
  List.foldl_append

theorem objectAfter_cases (oid : ObjectId) (writes : List Write) :
    (∀ data, .object oid data ∉ writes) ∧ (∀ before, objectAfter oid before writes = before) ∨
      ∃ data, .object oid data ∈ writes ∧ ∀ before, objectAfter oid before writes = data := by
  induction writes with
  | nil => exact Or.inl ⟨fun _ => List.not_mem_nil, fun _ => rfl⟩
  | cons x rest ih =>
      have hfirst : ∀ before, objectAfter oid before (x :: rest) =
          objectAfter oid (x.object? oid before) rest := fun _ => rfl
      rcases ih with ⟨hnone, hsame⟩ | ⟨data, hin, hfixed⟩
      · by_cases hx : ∃ data, x = .object oid data
        · obtain ⟨data, rfl⟩ := hx
          refine Or.inr ⟨data, List.mem_cons_self, fun before => ?_⟩
          rw [hfirst, hsame]
          exact if_pos rfl
        · refine Or.inl ⟨fun data hin => ?_, fun before => ?_⟩
          · exact (List.mem_cons.mp hin).elim (fun heq => hx ⟨data, heq.symm⟩) (hnone data)
          · rw [hfirst, hsame]
            cases x with
            | object oid' data => exact if_neg fun heq => hx ⟨data, by rw [heq]⟩
            | name => rfl
      · exact Or.inr ⟨data, List.mem_cons_of_mem x hin, fun before => hfixed _⟩

/-- The writes of objects, one after another. -/
def batch (items : List (ObjectId × Bytes)) : List Write :=
  items.map fun (oid, data) => object oid (some data)

/-- The writes of a batch before it came to an object. -/
def batchBefore (oid : ObjectId) (items : List (ObjectId × Bytes)) : List Write :=
  batch (items.takeWhile fun item => decide (item.1 ≠ oid))

/-- If it came to the object at all, they are those of the members before it. -/
theorem batchBefore_eq {oid : ObjectId} {items : List (ObjectId × Bytes)}
    (h : oid ∈ items.map Prod.fst) :
    ∃ before data rest, items = before ++ (oid, data) :: rest ∧
      batchBefore oid items = batch before := by
  induction items with
  | nil => exact absurd h List.not_mem_nil
  | cons item rest ih =>
      obtain ⟨oid', data'⟩ := item
      by_cases hfirst : oid' = oid
      · subst hfirst
        exact ⟨[], data', rest, rfl, by simp [batchBefore]⟩
      · obtain ⟨before, data, rest', rfl, hbefore⟩ :=
          ih ((List.mem_cons.mp h).resolve_left (Ne.symm hfirst))
        refine ⟨(oid', data') :: before, data, rest', rfl, ?_⟩
        have hmore : batchBefore oid ((oid', data') :: (before ++ (oid, data) :: rest')) =
            .object oid' (some data') :: batchBefore oid (before ++ (oid, data) :: rest') := by
          simp [batchBefore, batch, hfirst]
        rw [hmore, hbefore]
        rfl

end Write

namespace WriteSet

variable {w : WriteSet}

/-- Adds a write. -/
def record (w : WriteSet) : Write → WriteSet
  | .object oid data => w.writeObject oid data
  | .name name oid => w.writeName name oid

/-- Adds writes in order. -/
def recordAll (w : WriteSet) (writes : List Write) : WriteSet := writes.foldl record w

/-- The writes, whether they have been prepared or not. -/
def unprepared (w : WriteSet) : WriteSet := { w with prepared := false }

theorem recordAll_append (w : WriteSet) (writes writes' : List Write) :
    w.recordAll (writes ++ writes') = (w.recordAll writes).recordAll writes' :=
  List.foldl_append

theorem unprepared_recordAll (writes : List Write) :
    ∀ w : WriteSet, (w.recordAll writes).unprepared = w.unprepared.recordAll writes := by
  induction writes with
  | nil => intro w; rfl
  | cons x rest ih =>
      intro w
      refine (ih (w.record x)).trans ?_
      cases x <;> rfl

/-- What is seen of an object under recorded writes is what the writes make of it. -/
theorem object?_recordAll (m : FinMap ObjectId Bytes) (oid : ObjectId) (writes : List Write) :
    ∀ w : WriteSet, m.under? (w.recordAll writes).objects oid =
      Write.objectAfter oid (m.under? w.objects oid) writes := by
  induction writes with
  | nil => intro w; rfl
  | cons x rest ih =>
      intro w
      refine (ih (w.record x)).trans ?_
      have hfirst : m.under? (w.record x).objects oid = x.object? oid (m.under? w.objects oid) := by
        cases x with
        | object oid' data => exact FinMap.under?_insert m w.objects oid' data oid
        | name => rfl
      rw [hfirst]
      rfl

/-- So is what is seen of a name. -/
theorem binding?_recordAll (m : FinMap Name ObjectId) (name : Name) (writes : List Write) :
    ∀ w : WriteSet, m.under? (w.recordAll writes).names name =
      Write.bindingAfter name (m.under? w.names name) writes := by
  induction writes with
  | nil => intro w; rfl
  | cons x rest ih =>
      intro w
      refine (ih (w.record x)).trans ?_
      have hfirst : m.under? (w.record x).names name = x.binding? name (m.under? w.names name) := by
        cases x with
        | object => rfl
        | name name' oid => exact FinMap.under?_insert m w.names name' oid name
      rw [hfirst]
      rfl

end WriteSet

/-- What a call writes, by its answer. -/
def BackendCall.writes : {α : Type} → BackendCall α → Except StoreError α → List Write
  | _, .create, .ok oid => [.object oid (some [])]
  | _, .set oid data, .ok _ => [.object oid (some data)]
  | _, .setMany items, .ok _ => Write.batch items
  | _, .setMany items, .error (.objectNotFound oid) => Write.batchBefore oid items
  | _, .remove oid, .ok _ => [.object oid none]
  | _, .setBinding name oid, .ok _ => [.name name (some oid)]
  | _, .removeBinding name, .ok before => if before.isBound then [.name name none] else []
  | _, _, _ => []

/-- Whether the call ends no transaction, and does not shut the backend down. -/
def BackendCall.isData {α : Type} : BackendCall α → Bool
  | .shutdown | .prepare | .commit | .prepareAndCommit | .abort => false
  | _ => true

namespace Memory

variable {m m' m'' : Memory} {t : TxnId} {writes writes' : List Write}

/-- A call of `t` has added writes to those buffered, and has committed nothing. -/
structure Buffers (t : TxnId) (writes : List Write) (m m' : Memory) : Prop where
  objects : m'.objects = m.objects
  names : m'.names = m.names
  writes : m'.writes t = (m.writes t).recordAll writes

namespace Buffers

theorem refl (t : TxnId) (m : Memory) : Buffers t [] m m := ⟨rfl, rfl, rfl⟩

theorem trans (h : Buffers t writes m m') (h' : Buffers t writes' m' m'') :
    Buffers t (writes ++ writes') m m'' where
  objects := h'.objects.trans h.objects
  names := h'.names.trans h.names
  writes := by
    rw [h'.writes, h.writes, WriteSet.recordAll_append]

theorem write (x : Write) (t : TxnId) (m : Memory) : Buffers t [x] m (m.write t (·.record x)) where
  objects := rfl
  names := rfl
  writes := by
    rw [writes_write, if_pos rfl]
    rfl

end Buffers

theorem buffers_set {oid : ObjectId} {data : Bytes} {result : Except StoreError Unit}
    (h : m.set t oid data = (result, m')) :
    Buffers t ((BackendCall.set oid data).writes result) m m' := by
  unfold Memory.set at h
  split at h
  · cases h
    exact .write (.object oid (some data)) t m
  · cases h
    exact .refl t m

/-- A batch fails at one of its objects, whose number has not been given out. -/
theorem isAllocated_of_setMany (items : List (ObjectId × Bytes)) :
    ∀ {m m' : Memory} {e : StoreError}, setMany t items m = (.error e, m') →
      ∃ oid, e = .objectNotFound oid ∧ m.isAllocated oid = false ∧ oid ∈ items.map Prod.fst := by
  induction items with
  | nil =>
      intro m m' e h
      cases h
  | cons item rest ih =>
      intro m m' e h
      obtain ⟨oid, data⟩ := item
      unfold setMany Memory.set at h
      by_cases hallocated : m.isAllocated oid = true
      · simp only [if_pos hallocated] at h
        -- To write is not to give numbers out.
        obtain ⟨oid', he, hnot, hin⟩ := @ih (m.write t (·.writeObject oid (some data))) m' e h
        exact ⟨oid', he, hnot, List.mem_cons_of_mem oid hin⟩
      · simp only [if_neg hallocated, Prod.mk.injEq, Except.error.injEq] at h
        exact ⟨oid, h.1.symm, Bool.of_not_eq_true hallocated, List.mem_cons_self⟩

theorem buffers_setMany (items : List (ObjectId × Bytes)) :
    ∀ {m m' : Memory} {result : Except StoreError Unit}, setMany t items m = (result, m') →
      Buffers t ((BackendCall.setMany items).writes result) m m' := by
  induction items with
  | nil =>
      intro m m' result h
      cases h
      exact .refl t m
  | cons item rest ih =>
      intro m m' result h
      obtain ⟨oid, data⟩ := item
      have hwrite := Buffers.write (.object oid (some data)) t m
      unfold setMany Memory.set at h
      by_cases hallocated : m.isAllocated oid = true
      · simp only [if_pos hallocated] at h
        have hrest := hwrite.trans (ih h)
        cases result with
        | ok _ => exact hrest
        | error e =>
            -- What was not found is not what has just been written.
            obtain ⟨oid', rfl, hnot, -⟩ := isAllocated_of_setMany rest h
            have hne : oid ≠ oid' := by
              rintro rfl
              exact absurd (hallocated.symm.trans hnot) (by simp)
            have hbefore : (BackendCall.setMany ((oid, data) :: rest)).writes
                (.error (.objectNotFound oid')) =
                  .object oid (some data) :: Write.batchBefore oid' rest := by
              simp [BackendCall.writes, Write.batchBefore, Write.batch, hne]
            rw [hbefore]
            exact hrest
      · simp only [if_neg hallocated] at h
        cases h
        have hnone : (BackendCall.setMany ((oid, data) :: rest)).writes
            (.error (.objectNotFound oid)) = [] := by
          simp [BackendCall.writes, Write.batchBefore, Write.batch]
        rw [hnone]
        exact .refl t m

theorem buffers_remove {oid : ObjectId} {result : Except StoreError Unit}
    (h : m.remove t oid = (result, m')) :
    Buffers t ((BackendCall.remove oid).writes result) m m' := by
  unfold Memory.remove at h
  split at h
  · cases h
    exact .refl t m
  · cases h
    exact .write (.object oid none) t m

theorem buffers_setBinding (m : Memory) (t : TxnId) (name : Name) (oid : ObjectId) :
    Buffers t [.name name (some oid)] m (m.setBinding t name oid).2 := by
  unfold Memory.setBinding
  simp only
  split
  · exact .write (.name name (some oid)) t m
  · exact .write (.name name (some oid)) t m

theorem buffers_removeBinding (m : Memory) (t : TxnId) (name : Name) :
    Buffers t ((BackendCall.removeBinding name).writes (.ok (m.removeBinding t name).1)) m
      (m.removeBinding t name).2 := by
  unfold Memory.removeBinding
  split
  · exact .write (.name name none) t m
  · exact .refl t m

theorem buffers_classId {info : Bytes} {result : Except StoreError ClassId}
    (h : m.classId info = (result, m')) : Buffers t [] m m' := by
  unfold Memory.classId at h
  split at h
  · cases h
    exact .refl t m
  · simp only at h
    split at h
    · cases h
      exact ⟨rfl, rfl, rfl⟩
    · cases h
      exact .refl t m

/-- **A call adds to the buffered writes what it says it writes.** -/
theorem buffers_perform {α : Type} {c : BackendCall α} (hdata : c.isData = true)
    {result : Except StoreError α} (h : perform c t m = (result, m')) :
    Buffers t (c.writes result) m m' := by
  unfold perform at h
  split at h
  · cases h
    cases c <;> exact .refl t m
  · cases c with
    | create =>
        cases h
        have hnumber : Buffers t [] m { m with nextOid := m.nextOid.next } := ⟨rfl, rfl, rfl⟩
        exact hnumber.trans (.write (.object m.nextOid (some [])) t _)
    | set oid data => exact buffers_set h
    | setMany items => exact buffers_setMany items h
    | remove oid => exact buffers_remove h
    | setBinding name oid =>
        cases h
        exact buffers_setBinding m t name oid
    | removeBinding name =>
        cases h
        exact buffers_removeBinding m t name
    | classId info => cases result <;> exact buffers_classId h
    | mark oid =>
        cases h
        cases m.require t oid <;> exact .refl t m
    | get oid =>
        cases h
        cases m.require t oid <;> exact .refl t m
    | classInfo id =>
        cases h
        cases m.classInfo id <;> exact .refl t m
    | getBinding name =>
        cases h
        exact .refl t m
    | nextName after =>
        cases h
        exact .refl t m
    | nextObject after =>
        cases h
        exact .refl t m
    | shutdown => cases hdata
    | prepare => cases hdata
    | commit => cases hdata
    | prepareAndCommit => cases hdata
    | abort => cases hdata

end Memory

end ObjectStore
