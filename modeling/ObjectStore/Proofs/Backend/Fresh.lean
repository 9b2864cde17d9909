/-
The number of a new object is new.

`IsBehind` says that every key that is kept, be it of an object that is committed, of one that is
written or of one that is removed, is smaller than the number that comes next.  A transaction may write
an object only under a number that has been given out, and remove only an object that exists, so every
call keeps it so.  The one exception is to make an object when the ring of numbers has been gone round.
-/
import ObjectStore.Proofs.Backend.Classes

namespace ObjectStore

namespace Memory

variable {m : Memory} {t u : TxnId} {oid : ObjectId}

/-- Every key that is kept is smaller than the number that comes next. -/
structure IsBehind (m : Memory) : Prop where
  objects : ∀ oid, (m.objects.get? oid).isSome = true → oid < m.nextOid
  pending : ∀ u w, m.pending.get? u = some w →
    ∀ oid, (w.objects.get? oid).isSome = true → oid < m.nextOid

namespace IsBehind

theorem empty : Memory.empty.IsBehind where
  objects := fun _ h => by cases h
  pending := fun _ _ h => by cases h

theorem writes (h : m.IsBehind) (t : TxnId) (oid : ObjectId)
    (hkey : ((m.writes t).objects.get? oid).isSome = true) : oid < m.nextOid := by
  cases hpending : m.pending.get? t with
  | none =>
      rw [writes_of_pending_eq_none hpending] at hkey
      cases hkey
  | some w =>
      rw [writes_of_pending hpending] at hkey
      exact h.pending t w hpending oid hkey

theorem lt_of_object? (h : m.IsBehind) (hsome : (m.object? t oid).isSome = true) :
    oid < m.nextOid := by
  cases hwritten : (m.writes t).objects.get? oid with
  | some data => exact h.writes t oid (by rw [hwritten]; rfl)
  | none =>
      refine h.objects oid ?_
      rwa [object?, FinMap.under?_of_get?_eq_none hwritten] at hsome

theorem write {f : WriteSet → WriteSet} (h : m.IsBehind)
    (hf : ∀ oid, ((f (m.writes t)).objects.get? oid).isSome = true → oid < m.nextOid) :
    (m.write t f).IsBehind where
  objects := h.objects
  pending := by
    intro u w hpending
    by_cases hu : t = u
    · subst hu
      obtain rfl : f (m.writes t) = w := by simpa [Memory.write] using hpending
      exact hf
    · rw [pending_write_of_ne hu] at hpending
      exact h.pending u w hpending

theorem writeObject (h : m.IsBehind) (t : TxnId) (hoid : oid < m.nextOid) (data : Option Bytes) :
    (m.write t (·.writeObject oid data)).IsBehind := by
  refine h.write fun oid' hkey => ?_
  by_cases heq : oid = oid'
  · exact heq ▸ hoid
  · rw [WriteSet.writeObject, FinMap.get?_insert, if_neg heq] at hkey
    exact h.writes t oid' hkey

theorem writeName (h : m.IsBehind) (t : TxnId) (name : Name) (oid : Option ObjectId) :
    (m.write t (·.writeName name oid)).IsBehind :=
  h.write (h.writes t)

theorem discard (h : m.IsBehind) (t : TxnId) : (m.discard t).IsBehind where
  objects := h.objects
  pending := by
    intro u w hpending
    by_cases hu : t = u
    · subst hu
      rw [pending_discard_self] at hpending
      cases hpending
    · rw [pending_discard_of_ne hu] at hpending
      exact h.pending u w hpending

theorem apply {w : WriteSet} (h : m.IsBehind)
    (hw : ∀ oid, (w.objects.get? oid).isSome = true → oid < m.nextOid) : (m.apply w).IsBehind where
  objects := by
    intro oid hkey
    have hunder : (m.objects.under? w.objects oid).isSome = true := by
      rwa [← FinMap.get?_merge]
    cases hwritten : w.objects.get? oid with
    | some data => exact hw oid (by rw [hwritten]; rfl)
    | none =>
        rw [FinMap.under?_of_get?_eq_none hwritten] at hunder
        exact h.objects oid hunder
  pending := h.pending

/-- Nothing is written under a number that has not been given out. -/
theorem set (h : m.IsBehind) (t : TxnId) (oid : ObjectId) (data : Bytes) :
    (m.set t oid data).2.IsBehind := by
  unfold Memory.set
  split
  · rename_i hallocated
    have hlt : oid < m.nextOid := by
      simp only [isAllocated, Bool.and_eq_true, decide_eq_true_eq] at hallocated
      exact hallocated.2
    exact h.writeObject t hlt (some data)
  · exact h

theorem setMany (t : TxnId) (items : List (ObjectId × Bytes)) :
    ∀ {m : Memory}, m.IsBehind → (Memory.setMany t items m).2.IsBehind := by
  induction items with
  | nil => exact fun h => h
  | cons item rest ih =>
      intro m h
      obtain ⟨oid, data⟩ := item
      have hset := h.set t oid data
      unfold Memory.setMany
      rcases hsame : m.set t oid data with ⟨_ | _, m'⟩
      · rw [hsame] at hset
        exact hset
      · rw [hsame] at hset
        exact ih hset

/-- Nothing is removed that does not exist. -/
theorem remove (h : m.IsBehind) (t : TxnId) (oid : ObjectId) : (m.remove t oid).2.IsBehind := by
  unfold Memory.remove Memory.require
  cases hdata : m.object? t oid with
  | none => exact h
  | some data => exact h.writeObject t (h.lt_of_object? (by rw [hdata]; rfl)) none

theorem create (h : m.IsBehind) (t : TxnId) (hroom : m.nextOid.val + 1 < wideLimit) :
    (m.create t).2.IsBehind := by
  have hnext : m.nextOid < m.nextOid.next := by
    show m.nextOid.val < (m.nextOid.val + 1) % wideLimit
    rw [Nat.mod_eq_of_lt hroom]
    exact Nat.lt_succ_self _
  have hmoved : IsBehind { m with nextOid := m.nextOid.next } :=
    { objects := fun oid hkey => Nat.lt_trans (h.objects oid hkey) hnext
      pending := fun u w hpending oid hkey => Nat.lt_trans (h.pending u w hpending oid hkey) hnext }
  exact hmoved.writeObject t hnext (some [])

theorem prepare (h : m.IsBehind) (t : TxnId) : (m.prepare t).2.IsBehind := by
  unfold Memory.prepare
  split
  · exact h.discard t
  · exact h.write (f := fun w => { w with prepared := true }) (h.writes t)

theorem commit (h : m.IsBehind) (t : TxnId) : (m.commit t).2.IsBehind := by
  unfold Memory.commit
  cases hpending : m.pending.get? t with
  | none => exact h
  | some w =>
      simp only
      split
      · exact (h.discard t).apply (h.pending t w hpending)
      · exact h.discard t

/-- **Every call keeps it so**, while there are numbers left. -/
theorem perform {α : Type} (h : m.IsBehind) (c : BackendCall α) (t : TxnId)
    (hroom : c.kind = .create → m.nextOid.val + 1 < wideLimit) : (perform c t m).2.IsBehind := by
  unfold Memory.perform
  split
  · exact h
  · cases c with
    | create => exact h.create t (hroom rfl)
    | set oid data => exact h.set t oid data
    | setMany items => exact setMany t items h
    | remove oid => exact h.remove t oid
    | setBinding name oid =>
        simp only [performOpen, Memory.setBinding]
        split <;> exact h.writeName t name (some oid)
    | removeBinding name =>
        simp only [performOpen, Memory.removeBinding]
        split
        · exact h.writeName t name none
        · exact h
    | classId info =>
        show (m.classId info).2.IsBehind
        rcases m.classId_cases info with ⟨id, -, heq⟩ | ⟨-, -, heq⟩ | ⟨-, -, heq⟩ <;> rw [heq]
        · exact h
        · exact ⟨h.objects, h.pending⟩
        · exact h
    | prepare => exact h.prepare t
    | commit => exact h.commit t
    | prepareAndCommit => exact (h.discard t).apply (h.writes t)
    | abort => exact h.discard t
    | shutdown => exact ⟨h.objects, fun _ _ hpending => by cases hpending⟩
    | _ => exact h

end IsBehind

/-- A new object is given the number that comes next. -/
theorem perform_create (hopen : m.isShutDown = false) (t : TxnId) :
    perform .create t m = (.ok m.nextOid, (m.create t).2) := perform_of_open hopen

end Memory

/-! ### Numbers that have been given out -/

/-- The number of the object that an exchange has made. -/
def Exchange.creation? : Exchange → Option ObjectId
  | ⟨.create, _, .ok oid⟩ => some oid
  | _ => none

/-- The numbers of the objects that have been made, in order. -/
def created (said : List Exchange) : List ObjectId := said.filterMap Exchange.creation?

theorem created_concat (said : List Exchange) (x : Exchange) :
    created (said ++ [x]) = created said ++ x.creation?.toList := by
  unfold created
  rw [List.filterMap_append]
  cases hx : x.creation? <;> simp [hx]

theorem creation?_of_kind_ne {α : Type} {c : BackendCall α} (hc : c.kind ≠ .create) (t : TxnId)
    (answer : Except StoreError α) : Exchange.creation? ⟨c, t, answer⟩ = none := by
  cases c <;> first | rfl | exact absurd rfl hc

/-- The numbers come in order, and no key is ahead of them. -/
structure Counted (d : Dialogue) : Prop where
  next : d.memory.nextOid = ⟨(created d.said).length + 1⟩
  earlier : ∀ oid ∈ created d.said, oid < d.memory.nextOid
  behind : d.memory.IsBehind

namespace Counted

variable {d : Dialogue}

theorem new : Counted .new := ⟨rfl, fun _ hin => (List.not_mem_nil hin).elim, .empty⟩

theorem keep {r : Request} (h : Counted d) (hnext : (d.ask r).memory.nextOid = d.memory.nextOid)
    (hbehind : (d.ask r).memory.IsBehind)
    (hnone : Exchange.creation? ⟨r.call, r.t, (d.memory.perform r.call r.t).1⟩ = none) :
    Counted (d.ask r) := by
  have hsaid : created (d.ask r).said = created d.said := by
    unfold Dialogue.ask
    rw [created_concat, hnone]
    exact List.append_nil _
  refine ⟨?_, ?_, hbehind⟩
  · rw [hnext, hsaid]
    exact h.next
  · rw [hnext, hsaid]
    exact h.earlier

theorem create (h : Counted d) (hopen : d.memory.isShutDown = false) (t : TxnId)
    (hroom : (created d.said).length + 1 < wideLimit - 1) : Counted (d.ask ⟨.create, t⟩) := by
  have hnumber : d.memory.nextOid.val + 1 < wideLimit := by
    rw [h.next]
    exact Nat.lt_sub_iff_add_lt.mp hroom
  have hnext : d.memory.nextOid.next = ⟨d.memory.nextOid.val + 1⟩ :=
    congrArg ObjectId.mk (Nat.mod_eq_of_lt hnumber)
  unfold Dialogue.ask
  rw [Memory.perform_create hopen]
  have hsaid : created (d.said ++ [⟨.create, t, .ok d.memory.nextOid⟩]) =
      created d.said ++ [d.memory.nextOid] := created_concat _ _
  have hmade : (d.memory.create t).2.nextOid = ⟨d.memory.nextOid.val + 1⟩ := hnext
  refine ⟨?_, fun oid hin => ?_, h.behind.create t hnumber⟩
  · rw [hmade, hsaid, h.next, List.length_append]
    rfl
  · rw [hsaid] at hin
    rw [hmade]
    rcases List.mem_append.mp hin with hbefore | hnow
    · exact Nat.lt_succ_of_lt (h.earlier oid hbefore)
    · rw [List.mem_singleton.mp hnow]
      exact Nat.lt_succ_self _

theorem ask_create (h : Counted d) (t : TxnId)
    (hroom : (created (d.ask ⟨.create, t⟩).said).length < wideLimit - 1) :
    Counted (d.ask ⟨.create, t⟩) := by
  cases hshut : d.memory.isShutDown with
  | true =>
      have hperform := Memory.perform_of_isShutDown (c := .create) (t := t) hshut rfl
      refine h.keep ?_ ?_ ?_
      · simp only [Dialogue.ask, hperform]
      · simpa only [Dialogue.ask, hperform] using h.behind
      · simp only [hperform, Exchange.creation?]
  | false =>
      refine h.create hshut t ?_
      unfold Dialogue.ask at hroom
      rw [Memory.perform_create hshut, created_concat, List.length_append] at hroom
      exact hroom

theorem ask_of_ne (h : Counted d) {r : Request} (hkind : r.call.kind ≠ .create) :
    Counted (d.ask r) :=
  h.keep (Memory.nextOid_perform hkind r.t d.memory)
    (h.behind.perform r.call r.t fun hcreate => absurd hcreate hkind)
    (creation?_of_kind_ne hkind r.t _)

/-- **Every call keeps the count**, while there are numbers left. -/
theorem ask (h : Counted d) (r : Request)
    (hroom : (created (d.ask r).said).length < wideLimit - 1) : Counted (d.ask r) := by
  obtain ⟨call, t⟩ := r
  cases call with
  | create => exact h.ask_create t hroom
  | _ => exact h.ask_of_ne (by simp [BackendCall.kind])

theorem run (requests : List Request)
    (hroom : (created (Dialogue.run requests).said).length < wideLimit - 1) :
    Counted (Dialogue.run requests) := by
  induction requests using List.reverseRecOn with
  | nil => exact new
  | append_singleton requests r ih =>
      rw [Dialogue.run_concat] at hroom ⊢
      have hbefore : (created (Dialogue.run requests).said).length < wideLimit - 1 := by
        refine Nat.lt_of_le_of_lt ?_ hroom
        simp only [Dialogue.ask, created_concat, List.length_append]
        exact Nat.le_add_right _ _
      exact (ih hbefore).ask r hroom

end Counted

/--
**The number of a new object is greater than all that have been in use.**  Any number of transactions
may have made any calls in any order, with any objects; calls may have failed, and transactions may
have removed objects and may have ended as they like.  While numbers are left, an open backend makes an
object when it is asked to.  The number is greater than all that were given out before, also to those
who have aborted since, and than every key that is kept: of an object that is committed, of one that is
written, and of one that is removed.
-/
theorem create_fresh (requests : List Request)
    (hroom : (created (Dialogue.run requests).said).length < wideLimit - 1) (t : TxnId) :
    let d := Dialogue.run requests
    (d.memory.isShutDown = false → ∃ oid, (d.memory.perform .create t).1 = .ok oid) ∧
      ∀ oid, (d.memory.perform .create t).1 = .ok oid →
        (∀ earlier ∈ created d.said, earlier < oid) ∧
          (∀ key ∈ d.memory.objects.keys, key < oid) ∧
            ∀ u w, d.memory.pending.get? u = some w → ∀ key ∈ w.objects.keys, key < oid := by
  intro d
  have hcounted : Counted d := .run requests hroom
  refine ⟨fun hopen => ⟨_, congrArg Prod.fst (Memory.perform_create hopen t)⟩, fun oid hanswer => ?_⟩
  cases hshut : d.memory.isShutDown with
  | true =>
      rw [Memory.perform_of_isShutDown hshut rfl] at hanswer
      cases hanswer
  | false =>
      rw [Memory.perform_create hshut] at hanswer
      obtain rfl := Except.ok.inj hanswer
      refine ⟨hcounted.earlier, fun key hin => ?_, fun u w hpending key hin => ?_⟩
      · exact hcounted.behind.objects key ((FinMap.mem_keys _ _).mp hin)
      · exact hcounted.behind.pending u w hpending key ((FinMap.mem_keys _ _).mp hin)

/-- One transaction makes two objects, fails to write a third and aborts; another one makes an object
and commits it, and a third one removes that. -/
def threeMade : List Request :=
  [⟨.create, ⟨1⟩⟩, ⟨.set ⟨3⟩ [1], ⟨1⟩⟩, ⟨.create, ⟨1⟩⟩, ⟨.abort, ⟨1⟩⟩, ⟨.create, ⟨2⟩⟩,
    ⟨.prepareAndCommit, ⟨2⟩⟩, ⟨.remove ⟨3⟩, ⟨3⟩⟩]

/-- The next object has the number four, though nothing that the first transaction made is left. -/
theorem create_fresh_threeMade :
    (created (Dialogue.run threeMade).said).length < wideLimit - 1 ∧
      ((Dialogue.run threeMade).memory.perform .create ⟨1⟩).1 = .ok ⟨4⟩ ∧
      ∀ earlier ∈ created (Dialogue.run threeMade).said, earlier < ⟨4⟩ := by
  have hroom : (created (Dialogue.run threeMade).said).length < wideLimit - 1 := by decide
  have hanswer : ((Dialogue.run threeMade).memory.perform .create ⟨1⟩).1 = .ok ⟨4⟩ := by decide
  exact ⟨hroom, hanswer, ((create_fresh threeMade hroom ⟨1⟩).2 ⟨4⟩ hanswer).1⟩

end ObjectStore
