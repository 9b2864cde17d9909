/-
What a call that the memory backend refuses leaves behind.

`Refused` lists why a call fails and what the backend is then.  A batch is not on the list: it goes
through its members in turn, and is the subject of `Memory.buffers_setMany`.  Of all other calls only
one changes anything when it fails.  A commit takes the writes of its transaction out before it sees
whether they have been prepared, and if they have not, they are gone.

That something is lost then, and not just an entry without writes, is an invariant of the backend: it
keeps no entry for a transaction that has written nothing.
-/
import ObjectStore.Proofs.Backend.Overlay

namespace ObjectStore

/-- The object without which a call fails. -/
def BackendCall.needs? {α : Type} : BackendCall α → Option ObjectId
  | .mark oid | .get oid | .remove oid => some oid
  | _ => none

namespace Memory

variable {m m' : Memory} {t u : TxnId} {e : StoreError}

/-! ### Why a call fails -/

/-- Why a call of `t` fails, with which failure, and what is left of the backend. -/
inductive Refused (t : TxnId) (m : Memory) :
    {α : Type} → BackendCall α → StoreError → Memory → Prop where
  | shut {α : Type} {c : BackendCall α} (hshut : m.isShutDown = true)
    (hneeds : isAlwaysAllowed c = false) :
    Refused t m c (.illegalState "backend is shut down") m
  | absent {α : Type} {c : BackendCall α} {oid : ObjectId} (hopen : m.isShutDown = false)
    (hneeds : c.needs? = some oid) (hnone : m.object? t oid = none) :
    Refused t m c (.objectNotFound oid) m
  /-- An object that was removed may be set again, but its number must have been given out. -/
  | unallocated {oid : ObjectId} {data : Bytes} (hopen : m.isShutDown = false)
    (hnot : m.isAllocated oid = false) :
    Refused t m (.set oid data) (.objectNotFound oid) m
  | unknownClass {id : ClassId} (hopen : m.isShutDown = false)
    (hnone : ∀ i, id.val = i + 1 → m.classes[i]? = none) :
    Refused t m (.classInfo id) (.classInfoNotFound id) m
  | classesFull {info : Bytes} (hopen : m.isShutDown = false) (hnew : m.classIds.get? info = none)
    (hfull : classLimit ≤ m.classes.length + 1) :
    Refused t m (.classId info) (.internal "class id space exhausted") m
  /-- The writes are lost. -/
  | unprepared {w : WriteSet} (hopen : m.isShutDown = false)
    (hpending : m.pending.get? t = some w) (hprepared : w.prepared = false) :
    Refused t m .commit (.illegalState s!"transaction {t.text} committed without prepare")
      (m.discard t)

theorem object?_of_require {oid : ObjectId} (h : m.require t oid = .error e) :
    e = .objectNotFound oid ∧ m.object? t oid = none := by
  unfold require at h
  split at h
  · cases h
  · rename_i hnone
    cases h
    exact ⟨rfl, hnone⟩

theorem refused_of_set {oid : ObjectId} {data : Bytes} (hopen : m.isShutDown = false)
    (h : m.set t oid data = (.error e, m')) : Refused t m (.set oid data) e m' := by
  unfold set at h
  split at h
  · cases h
  · rename_i hnot
    cases h
    exact .unallocated hopen (Bool.of_not_eq_true hnot)

theorem refused_of_remove {oid : ObjectId} (hopen : m.isShutDown = false)
    (h : m.remove t oid = (.error e, m')) : Refused t m (.remove oid) e m' := by
  unfold remove at h
  split at h
  · rename_i hrequire
    cases h
    obtain ⟨rfl, hnone⟩ := object?_of_require hrequire
    exact .absent hopen rfl hnone
  · cases h

theorem refused_of_classInfo {id : ClassId} (hopen : m.isShutDown = false)
    (h : m.classInfo id = .error e) : Refused t m (.classInfo id) e m := by
  unfold classInfo at h
  split at h
  · rename_i hzero
    cases h
    exact .unknownClass hopen fun i hi => by omega
  · rename_i i hi
    split at h
    · cases h
    · rename_i hnone
      cases h
      refine .unknownClass hopen fun j hj => ?_
      obtain rfl : i = j := by omega
      exact hnone

theorem refused_of_classId {info : Bytes} (hopen : m.isShutDown = false)
    (h : m.classId info = (.error e, m')) : Refused t m (.classId info) e m' := by
  unfold classId at h
  split at h
  · cases h
  · rename_i hnew
    simp only at h
    split at h
    · cases h
    · rename_i hfull
      cases h
      exact .classesFull hopen hnew (Nat.le_of_not_lt hfull)

theorem refused_of_commit (hopen : m.isShutDown = false) (h : m.commit t = (.error e, m')) :
    Refused t m .commit e m' := by
  unfold commit at h
  split at h
  · cases h
  · rename_i w hpending
    split at h
    · cases h
    · rename_i hprepared
      cases h
      exact .unprepared hopen hpending (Bool.of_not_eq_true hprepared)

/-- **A call fails for one of the listed reasons.** -/
theorem refused_of_perform {α : Type} {c : BackendCall α} (hbatch : c.kind ≠ .setMany)
    (h : perform c t m = (.error e, m')) : Refused t m c e m' := by
  by_cases hallowed : m.isShutDown = true ∧ isAlwaysAllowed c = false
  · rw [perform_of_isShutDown hallowed.1 hallowed.2] at h
    cases h
    exact .shut hallowed.1 hallowed.2
  · have hperform : m.performOpen t c = (.error e, m') := by
      unfold perform at h
      rwa [if_neg (by simpa using hallowed)] at h
    -- What is answered even by a backend that is shut down does not fail.
    have hopen : isAlwaysAllowed c = false → m.isShutDown = false := fun hneeds =>
      Bool.of_not_eq_true fun hshut => hallowed ⟨hshut, hneeds⟩
    cases c with
    | get oid =>
        obtain ⟨hrequire, rfl⟩ := Prod.mk.inj hperform
        obtain ⟨rfl, hnone⟩ := object?_of_require hrequire
        exact .absent (hopen rfl) rfl hnone
    | mark oid =>
        obtain ⟨hrequire, rfl⟩ := Prod.mk.inj hperform
        cases hdata : m.require t oid with
        | ok data => simp [hdata, Except.map] at hrequire
        | error e' =>
            obtain rfl : e' = e := by simpa [hdata, Except.map] using hrequire
            obtain ⟨rfl, hnone⟩ := object?_of_require hdata
            exact .absent (hopen rfl) rfl hnone
    | remove oid => exact refused_of_remove (hopen rfl) hperform
    | set oid data => exact refused_of_set (hopen rfl) hperform
    | classInfo id =>
        obtain ⟨hinfo, rfl⟩ := Prod.mk.inj hperform
        exact refused_of_classInfo (hopen rfl) hinfo
    | classId info => exact refused_of_classId (hopen rfl) hperform
    | commit => exact refused_of_commit (hopen rfl) hperform
    | setMany items => exact absurd rfl hbatch
    | _ => cases hperform

/-- **A failure leaves the backend as it was, unless an open backend was asked to commit.** -/
theorem Refused.cases {α : Type} {c : BackendCall α} (h : Refused t m c e m') :
    m' = m ∧ ¬(c.kind = .commit ∧ m.isShutDown = false) ∨
      (c.kind = .commit ∧ m.isShutDown = false) ∧
        ∃ w, m.pending.get? t = some w ∧ w.prepared = false ∧ m' = m.discard t := by
  cases h with
  | shut hshut => exact Or.inl ⟨rfl, by simp [hshut]⟩
  | absent hopen hneeds =>
      refine Or.inl ⟨rfl, fun hcommit => ?_⟩
      cases c <;> simp [BackendCall.kind, BackendCall.needs?] at hneeds hcommit
  | unprepared hopen hpending hprepared =>
      exact Or.inr ⟨⟨rfl, hopen⟩, _, hpending, hprepared, rfl⟩
  | _ => exact Or.inl ⟨rfl, by simp [BackendCall.kind]⟩

/-! ### Entries without writes -/

/-- There is no entry for a transaction that has written nothing. -/
def IsSparse (m : Memory) : Prop := ∀ u w, m.pending.get? u = some w → w.isEmpty = false

theorem isEmpty_record (w : WriteSet) (x : Write) : (w.record x).isEmpty = false := by
  cases x <;> simp [WriteSet.record, WriteSet.writeObject, WriteSet.writeName, WriteSet.isEmpty,
    FinMap.insert, FinMap.isEmpty]

namespace IsSparse

theorem empty : Memory.empty.IsSparse := fun _ _ h => by cases h

theorem write {f : WriteSet → WriteSet} (h : m.IsSparse) (hf : (f (m.writes t)).isEmpty = false) :
    (m.write t f).IsSparse := by
  intro u w hpending
  by_cases hu : t = u
  · subst hu
    obtain rfl : f (m.writes t) = w := by simpa [Memory.write] using hpending
    exact hf
  · rw [pending_write_of_ne hu] at hpending
    exact h u w hpending

theorem record (h : m.IsSparse) (t : TxnId) (x : Write) : (m.write t (·.record x)).IsSparse :=
  h.write (isEmpty_record _ x)

theorem discard (h : m.IsSparse) (t : TxnId) : (m.discard t).IsSparse := by
  intro u w hpending
  by_cases hu : t = u
  · subst hu
    rw [pending_discard_self] at hpending
    cases hpending
  · rw [pending_discard_of_ne hu] at hpending
    exact h u w hpending

theorem setMany (t : TxnId) (items : List (ObjectId × Bytes)) :
    ∀ {m : Memory}, m.IsSparse → (Memory.setMany t items m).2.IsSparse := by
  induction items with
  | nil => exact fun h => h
  | cons item rest ih =>
      intro m h
      obtain ⟨oid, data⟩ := item
      unfold Memory.setMany Memory.set
      by_cases hallocated : m.isAllocated oid = true
      · simp only [if_pos hallocated]
        exact ih (h.record t (.object oid (some data)))
      · simp only [if_neg hallocated]
        exact h

/-- **Every call keeps it so.** -/
theorem perform {α : Type} (h : m.IsSparse) (c : BackendCall α) (t : TxnId) :
    (perform c t m).2.IsSparse := by
  unfold Memory.perform
  split
  · exact h
  · cases c with
    | create =>
        have hnumber : IsSparse { m with nextOid := m.nextOid.next } := h
        exact hnumber.record t (.object m.nextOid (some []))
    | set oid data =>
        show (m.set t oid data).2.IsSparse
        unfold Memory.set
        split
        · exact h.record t (.object oid (some data))
        · exact h
    | setMany items => exact h.setMany t items
    | remove oid =>
        show (m.remove t oid).2.IsSparse
        unfold Memory.remove
        split
        · exact h
        · exact h.record t (.object oid none)
    | setBinding name oid =>
        simp only [performOpen, Memory.setBinding]
        split <;> exact h.record t (.name name (some oid))
    | removeBinding name =>
        simp only [performOpen, Memory.removeBinding]
        split
        · exact h.record t (.name name none)
        · exact h
    | classId info =>
        simp only [performOpen, Memory.classId]
        split
        · exact h
        · split <;> exact h
    | prepare =>
        simp only [performOpen, Memory.prepare]
        split
        · exact h.discard t
        · rename_i hwrites
          exact h.write (Bool.of_not_eq_true hwrites)
    | commit =>
        simp only [performOpen, Memory.commit]
        split
        · exact h
        · split <;> exact h.discard t
    | prepareAndCommit => exact h.discard t
    | abort => exact h.discard t
    | shutdown => exact fun _ _ hpending => by cases hpending
    | _ => exact h

theorem run (requests : List Request) : (Dialogue.run requests).memory.IsSparse := by
  induction requests using List.reverseRecOn with
  | nil => exact empty
  | append_singleton requests r ih =>
      rw [Dialogue.run_concat]
      exact ih.perform r.call r.t

end IsSparse

/-! ### What a failure changes -/

/--
**A failure changes nothing, unless a commit is asked for too early.**  Any number of transactions may
have made any calls in any order.  A call that then fails, and is no batch, leaves the whole backend as
it was, with one exception: a commit that an open backend refuses.  There are writes then, they have
not been prepared, and they are lost; of all else nothing has changed.
-/
theorem unchanged_iff_of_refused (requests : List Request) {α : Type} {c : BackendCall α} {t : TxnId}
    {e : StoreError} {m' : Memory} (hbatch : c.kind ≠ .setMany)
    (h : (Dialogue.run requests).memory.perform c t = (.error e, m')) :
    let m := (Dialogue.run requests).memory
    (m' = m ↔ ¬(c.kind = .commit ∧ m.isShutDown = false)) ∧
      (c.kind = .commit → m.isShutDown = false →
        ∃ w, m.pending.get? t = some w ∧ w.isEmpty = false ∧ w.prepared = false ∧
          m' = m.discard t) := by
  intro m
  rcases (refused_of_perform hbatch h).cases with ⟨hsame, hnot⟩ | ⟨hearly, w, hpending, hw, rfl⟩
  · exact ⟨iff_of_true hsame hnot, fun hcommit hopen => absurd ⟨hcommit, hopen⟩ hnot⟩
  · exact ⟨iff_of_false (discard_ne_of_pending hpending) fun hnot => hnot hearly,
      fun _ _ => ⟨w, hpending, IsSparse.run requests t w hpending, hw, rfl⟩⟩

/-- One transaction makes an object. -/
def oneCreated : List Request := [⟨.create, ⟨1⟩⟩]

/-- To look for another object fails, and changes nothing. -/
theorem unchanged_iff_of_refused_get :
    (Dialogue.run oneCreated).memory.perform (.get ⟨2⟩) ⟨1⟩ =
        (.error (.objectNotFound ⟨2⟩), (Dialogue.run oneCreated).memory) ∧
      ¬((BackendCall.get ⟨2⟩).kind = .commit ∧ (Dialogue.run oneCreated).memory.isShutDown = false) := by
  have hfails : (Dialogue.run oneCreated).memory.perform (.get ⟨2⟩) ⟨1⟩ =
      (.error (.objectNotFound ⟨2⟩), (Dialogue.run oneCreated).memory) := by decide
  exact ⟨hfails, (unchanged_iff_of_refused oneCreated (by decide) hfails).1.mp rfl⟩

/-- **A commit that fails can lose an object.**  It comes before the transaction is prepared; and when
the transaction is prepared after all, it has nothing to commit. -/
theorem exists_loss_of_refused :
    let m := (Dialogue.run oneCreated).memory
    let m' := (m.perform .commit ⟨1⟩).2
    (m.perform .commit ⟨1⟩).1 =
        .error (.illegalState "transaction 1 committed without prepare") ∧
      m.object? ⟨1⟩ ⟨1⟩ = some [] ∧ m'.object? ⟨1⟩ ⟨1⟩ = none ∧
      (m.perform .prepare ⟨1⟩).1 = .ok false ∧ (m'.perform .prepare ⟨1⟩).1 = .ok true := by
  decide

end Memory

end ObjectStore
