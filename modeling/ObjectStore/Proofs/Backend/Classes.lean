/-
The table of classes.

The backend keeps class descriptions in a list and their numbers in a map.  Neither belongs to any
transaction: a description that has been registered stays, whatever becomes of the transaction that
asked for it.

`Classed` says that the list and the map are each other's inverse, and that they hold what has been
answered to those who asked for a number.  Every call keeps it, and the main statement `class_table`
is read off it.
-/
import ObjectStore.Proofs.Backend.Overlay

namespace ObjectStore

namespace Memory

variable {m : Memory} {info : Bytes} {id : ClassId}

/-! ### Look-ups in the table -/

/-- A number leads to the description at its place, where the first place has number one. -/
theorem classInfo_eq_ok_iff :
    m.classInfo id = .ok info ↔ ∃ i, m.classes[i]? = some info ∧ id = ⟨i + 1⟩ := by
  obtain ⟨n⟩ := id
  unfold classInfo
  cases n with
  | zero => simp
  | succ i => cases hfound : m.classes[i]? <;> simp [hfound]

theorem classInfo_eq_error (h : ∀ info, m.classInfo id ≠ .ok info) :
    m.classInfo id = .error (.classInfoNotFound id) := by
  cases hanswer : m.classInfo id with
  | ok info => exact absurd hanswer (h info)
  | error e =>
      unfold classInfo at hanswer
      split at hanswer
      · exact hanswer.symm
      · split at hanswer
        · cases hanswer
        · exact hanswer.symm

theorem classId_cases (info : Bytes) (m : Memory) :
    (∃ id, m.classIds.get? info = some id ∧ m.classId info = (.ok id, m)) ∨
      m.classIds.get? info = none ∧ m.classes.length + 1 < classLimit ∧
        m.classId info = (.ok ⟨m.classes.length + 1⟩, { m with
          classes := m.classes ++ [info]
          classIds := m.classIds.insert info ⟨m.classes.length + 1⟩ }) ∨
      m.classIds.get? info = none ∧ classLimit ≤ m.classes.length + 1 ∧
        m.classId info = (.error (.internal "class id space exhausted"), m) := by
  unfold classId
  cases hknown : m.classIds.get? info with
  | some id => exact Or.inl ⟨id, rfl, rfl⟩
  | none =>
      by_cases hroom : m.classes.length + 1 < classLimit
      · exact Or.inr (Or.inl ⟨rfl, hroom, if_pos hroom⟩)
      · exact Or.inr (Or.inr ⟨rfl, Nat.le_of_not_lt hroom, if_neg hroom⟩)

/-! ### What belongs to no transaction -/

/-- The number that comes next, and the table of classes. -/
def standing (m : Memory) : ObjectId × List Bytes × FinMap Bytes ClassId :=
  (m.nextOid, m.classes, m.classIds)

theorem standing_setMany (t : TxnId) (items : List (ObjectId × Bytes)) :
    ∀ m : Memory, (setMany t items m).2.standing = m.standing := by
  induction items with
  | nil => exact fun _ => rfl
  | cons item rest ih =>
      intro m
      obtain ⟨oid, data⟩ := item
      unfold setMany Memory.set
      by_cases hallocated : m.isAllocated oid = true
      · simp only [if_pos hallocated]
        exact ih _
      · simp only [if_neg hallocated]

/-- Only two calls change it. -/
theorem standing_perform {α : Type} {c : BackendCall α} (hcreate : c.kind ≠ .create)
    (hclass : c.kind ≠ .classId) (t : TxnId) (m : Memory) :
    (perform c t m).2.standing = m.standing := by
  unfold perform
  split
  · rfl
  · cases c with
    | create => exact absurd rfl hcreate
    | classId => exact absurd rfl hclass
    | set oid data =>
        show (m.set t oid data).2.standing = _
        unfold Memory.set
        split <;> rfl
    | setMany items => exact standing_setMany t items m
    | remove oid =>
        show (m.remove t oid).2.standing = _
        unfold Memory.remove
        split <;> rfl
    | setBinding name oid =>
        show (m.setBinding t name oid).2.standing = _
        unfold Memory.setBinding
        simp only
        split <;> rfl
    | removeBinding name =>
        show (m.removeBinding t name).2.standing = _
        unfold Memory.removeBinding
        split <;> rfl
    | prepare =>
        show (m.prepare t).2.standing = _
        unfold Memory.prepare
        split <;> rfl
    | commit =>
        show (m.commit t).2.standing = _
        unfold Memory.commit
        split
        · rfl
        · split <;> rfl
    | _ => rfl

/-- **No number is given out but by making an object.** -/
theorem nextOid_perform {α : Type} {c : BackendCall α} (hc : c.kind ≠ .create) (t : TxnId)
    (m : Memory) : (perform c t m).2.nextOid = m.nextOid := by
  cases c with
  | create => exact absurd rfl hc
  | classId info =>
      unfold perform
      split
      · rfl
      · show (m.classId info).2.nextOid = _
        rcases m.classId_cases info with ⟨id, -, heq⟩ | ⟨-, -, heq⟩ | ⟨-, -, heq⟩ <;> rw [heq]
  | _ =>
      exact congrArg Prod.fst (standing_perform hc (by simp [BackendCall.kind]) t m)

/-- **No class is registered but by asking for its number.** -/
theorem classes_perform {α : Type} {c : BackendCall α} (hc : c.kind ≠ .classId) (t : TxnId)
    (m : Memory) :
    (perform c t m).2.classes = m.classes ∧ (perform c t m).2.classIds = m.classIds := by
  cases c with
  | classId => exact absurd rfl hc
  | create =>
      unfold perform
      split <;> exact ⟨rfl, rfl⟩
  | _ =>
      exact Prod.mk.inj (congrArg Prod.snd (standing_perform (by simp [BackendCall.kind]) hc t m))

end Memory

/-! ### What has been registered -/

/-- The description and the number that an exchange tells of. -/
def Exchange.registration? : Exchange → Option (Bytes × ClassId)
  | ⟨.classId info, _, .ok id⟩ => some (info, id)
  | _ => none

/-- What has been answered to those who asked for the number of a description, in order. -/
def registrations (said : List Exchange) : List (Bytes × ClassId) :=
  said.filterMap Exchange.registration?

theorem registrations_append (said said' : List Exchange) :
    registrations (said ++ said') = registrations said ++ registrations said' :=
  List.filterMap_append

/-- The registered descriptions, in the order of their first registrations. -/
def registered (said : List Exchange) : List Bytes :=
  ((registrations said).map Prod.fst).eraseDups

theorem registrations_of_kind_ne {α : Type} {c : BackendCall α} (hc : c.kind ≠ .classId)
    (t : TxnId) (answer : Except StoreError α) : registrations [⟨c, t, answer⟩] = [] := by
  cases c <;> first | rfl | exact absurd rfl hc

/-- A description counts once. -/
theorem eraseDups_concat (infos : List Bytes) (info : Bytes) :
    (infos ++ [info]).eraseDups = infos.eraseDups ++ if info ∈ infos then [] else [info] := by
  rw [List.eraseDups_append]
  by_cases hin : info ∈ infos
  · simp [List.removeAll, hin]
  · simp [List.removeAll, hin, List.eraseDups_cons]

/-- The table holds what has been registered, and its two sides are each other's inverse. -/
structure Classed (d : Dialogue) : Prop where
  classes : d.memory.classes = registered d.said
  distinct : d.memory.classes.Nodup
  inverse : ∀ info id, d.memory.classIds.get? info = some id ↔ d.memory.classInfo id = .ok info
  registrations : ∀ info id,
    (info, id) ∈ registrations d.said ↔ d.memory.classIds.get? info = some id

namespace Classed

variable {d : Dialogue} {info : Bytes} {id : ClassId} {t : TxnId}

theorem new : Classed .new where
  classes := rfl
  distinct := List.nodup_nil
  inverse := by
    intro info id
    rw [Memory.classInfo_eq_ok_iff]
    simp [Dialogue.new, Memory.empty]
  registrations := by
    intro info id
    simp [Dialogue.new, Memory.empty, ObjectStore.registrations]

theorem mem_classes_iff (h : Classed d) :
    info ∈ d.memory.classes ↔ ∃ id, d.memory.classIds.get? info = some id := by
  constructor
  · intro hin
    obtain ⟨i, hi⟩ := List.mem_iff_getElem?.mp hin
    exact ⟨⟨i + 1⟩, (h.inverse _ _).mpr (Memory.classInfo_eq_ok_iff.mpr ⟨i, hi, rfl⟩)⟩
  · rintro ⟨id, hid⟩
    obtain ⟨i, hi, -⟩ := Memory.classInfo_eq_ok_iff.mp ((h.inverse _ _).mp hid)
    exact List.mem_iff_getElem?.mpr ⟨i, hi⟩

theorem mem_infos_iff (h : Classed d) :
    info ∈ (ObjectStore.registrations d.said).map Prod.fst ↔ info ∈ d.memory.classes := by
  rw [h.mem_classes_iff]
  simp [h.registrations]

theorem keep {d' : Dialogue} (h : Classed d) (hclasses : d'.memory.classes = d.memory.classes)
    (hids : d'.memory.classIds = d.memory.classIds)
    (hsaid : ObjectStore.registrations d'.said = ObjectStore.registrations d.said) :
    Classed d' where
  classes := by
    unfold registered
    rw [hclasses, hsaid]
    exact h.classes
  distinct := hclasses ▸ h.distinct
  inverse := by
    intro info id
    rw [hids, h.inverse, Memory.classInfo_eq_ok_iff, Memory.classInfo_eq_ok_iff, hclasses]
  registrations := by
    intro info id
    rw [hids, hsaid]
    exact h.registrations info id

theorem again (h : Classed d) (hid : d.memory.classIds.get? info = some id) (t : TxnId) :
    Classed ⟨d.memory, d.said ++ [⟨.classId info, t, .ok id⟩]⟩ where
  classes := by
    have hin : info ∈ (ObjectStore.registrations d.said).map Prod.fst :=
      h.mem_infos_iff.mpr (h.mem_classes_iff.mpr ⟨id, hid⟩)
    have hsaid : registered (d.said ++ [⟨.classId info, t, .ok id⟩]) = registered d.said := by
      unfold registered
      rw [registrations_append, List.map_append]
      exact (eraseDups_concat _ info).trans (by rw [if_pos hin, List.append_nil])
    exact h.classes.trans hsaid.symm
  distinct := h.distinct
  inverse := h.inverse
  registrations := by
    intro info' id'
    rw [registrations_append, List.mem_append, h.registrations]
    constructor
    · rintro (hbefore | hnow)
      · exact hbefore
      · obtain ⟨rfl, rfl⟩ := Prod.mk.inj (List.mem_singleton.mp hnow)
        exact hid
    · exact Or.inl

/-- A new description is put at the end, and its number leads there. -/
theorem add (h : Classed d) (hnew : d.memory.classIds.get? info = none) (t : TxnId) :
    Classed ⟨{ d.memory with
        classes := d.memory.classes ++ [info]
        classIds := d.memory.classIds.insert info ⟨d.memory.classes.length + 1⟩ },
      d.said ++ [⟨.classId info, t, .ok ⟨d.memory.classes.length + 1⟩⟩]⟩ := by
  have hnot : info ∉ d.memory.classes := by
    rw [h.mem_classes_iff]
    simp [hnew]
  refine ⟨?_, ?_, fun info' id' => ?_, fun info' id' => ?_⟩
  · have hinfos : info ∉ (ObjectStore.registrations d.said).map Prod.fst := by
      rwa [h.mem_infos_iff]
    show d.memory.classes ++ [info] = registered (d.said ++ _)
    unfold registered
    rw [registrations_append, List.map_append, h.classes]
    exact ((eraseDups_concat _ info).trans (by rw [if_neg hinfos]; rfl)).symm
  · refine List.nodup_append.mpr ⟨h.distinct, by simp, ?_⟩
    intro a ha b hb hab
    obtain rfl := List.mem_singleton.mp hb
    exact hnot (hab ▸ ha)
  · have hold := h.inverse info' id'
    rw [Memory.classInfo_eq_ok_iff] at hold ⊢
    simp only [FinMap.get?_insert, List.getElem?_append]
    by_cases hinfo : info = info'
    · subst hinfo
      simp only [if_true, Option.some.injEq]
      constructor
      · rintro rfl
        exact ⟨d.memory.classes.length, by simp, rfl⟩
      · rintro ⟨i, hi, rfl⟩
        split at hi
        · exact absurd (List.mem_iff_getElem?.mpr ⟨i, hi⟩) hnot
        · rename_i hlong
          have hi' := (List.getElem?_eq_some_iff.mp hi).1
          simp only [List.length_singleton] at hi'
          exact congrArg ClassId.mk (by omega)
    · rw [if_neg hinfo, hold]
      refine exists_congr fun i => and_congr_left fun _ => ?_
      split
      · exact Iff.rfl
      · rename_i hlong
        rw [List.getElem?_eq_none (Nat.le_of_not_lt hlong)]
        simp only [reduceCtorEq, false_iff]
        intro hi
        have hin : info' ∈ [info] := List.mem_iff_getElem?.mpr ⟨_, hi⟩
        exact hinfo (List.mem_singleton.mp hin).symm
  · rw [registrations_append, List.mem_append, h.registrations]
    simp only [FinMap.get?_insert]
    have hlast : (info', id') ∈ ObjectStore.registrations
        [⟨.classId info, t, .ok ⟨d.memory.classes.length + 1⟩⟩] ↔
          info' = info ∧ id' = ⟨d.memory.classes.length + 1⟩ := by
      simp [ObjectStore.registrations, Exchange.registration?]
    rw [hlast]
    by_cases hinfo : info = info'
    · subst hinfo
      simp [hnew, eq_comm]
    · simp [hinfo, Ne.symm hinfo]

theorem ask_classId (h : Classed d) (info : Bytes) (t : TxnId) :
    Classed (d.ask ⟨.classId info, t⟩) := by
  have hunanswered : ∀ e : StoreError, Classed ⟨d.memory, d.said ++ [⟨.classId info, t, .error e⟩]⟩ :=
    fun e => h.keep rfl rfl (by rw [registrations_append]; exact List.append_nil _)
  unfold Dialogue.ask
  cases hshut : d.memory.isShutDown with
  | true =>
      rw [Memory.perform_of_isShutDown hshut rfl]
      exact hunanswered _
  | false =>
      have hperform : d.memory.perform (.classId info) t = d.memory.classId info :=
        Memory.perform_of_open hshut
      rw [hperform]
      rcases d.memory.classId_cases info with ⟨id, hid, heq⟩ | ⟨hnew, -, heq⟩ | ⟨-, -, heq⟩
      · rw [heq]
        exact h.again hid t
      · rw [heq]
        exact h.add hnew t
      · rw [heq]
        exact hunanswered _

theorem ask_of_ne (h : Classed d) {r : Request} (hkind : r.call.kind ≠ .classId) :
    Classed (d.ask r) := by
  obtain ⟨hclasses, hids⟩ := Memory.classes_perform hkind r.t d.memory
  refine h.keep hclasses hids ?_
  unfold Dialogue.ask
  rw [registrations_append, registrations_of_kind_ne hkind, List.append_nil]

/-- **Every call keeps the table so.** -/
theorem ask (h : Classed d) (r : Request) : Classed (d.ask r) := by
  obtain ⟨call, t⟩ := r
  cases call with
  | classId info => exact h.ask_classId info t
  | _ => exact h.ask_of_ne (by simp [BackendCall.kind])

theorem run (requests : List Request) : Classed (Dialogue.run requests) := by
  induction requests using List.reverseRecOn with
  | nil => exact new
  | append_singleton requests r ih =>
      rw [Dialogue.run_concat]
      exact ih.ask r

/-- A number has been answered for the description at its place, and for no other. -/
theorem mem_registrations_iff (h : Classed d) :
    (info, id) ∈ ObjectStore.registrations d.said ↔
      ∃ i, d.memory.classes[i]? = some info ∧ id = ⟨i + 1⟩ := by
  rw [h.registrations, h.inverse, Memory.classInfo_eq_ok_iff]

end Classed

/-! ### The table is one-to-one and permanent -/

/-- What is known of the table of classes after a dialogue. -/
structure ClassTable (d : Dialogue) : Prop where
  /-- The distinct descriptions are kept in the order in which they were first registered. -/
  inOrder : d.memory.classes = registered d.said ∧ d.memory.classes.Nodup
  /-- They are numbered from one. -/
  numbered : ∀ info id, (info, id) ∈ registrations d.said ↔
    ∃ i, d.memory.classes[i]? = some info ∧ id = ⟨i + 1⟩
  ids : ∀ id, (∃ info, (info, id) ∈ registrations d.said) ↔
    1 ≤ id.val ∧ id.val ≤ d.memory.classes.length
  /-- Equal descriptions have the same number, and different ones have different numbers. -/
  oneToOne : ∀ info id info' id', (info, id) ∈ registrations d.said →
    (info', id') ∈ registrations d.said → (info = info' ↔ id = id')
  /-- What has been registered is found both ways, whoever asks. -/
  found : d.memory.isShutDown = false → ∀ info id, (info, id) ∈ registrations d.said → ∀ t,
    d.memory.perform (.classInfo id) t = (.ok info, d.memory) ∧
      d.memory.perform (.classId info) t = (.ok id, d.memory)
  /-- There is no description of any other number, -/
  unknown : d.memory.isShutDown = false → ∀ id, (∀ info, (info, id) ∉ registrations d.said) → ∀ t,
    d.memory.perform (.classInfo id) t = (.error (.classInfoNotFound id), d.memory)
  /-- and a description that is new is given the next number while there is one. -/
  registers : d.memory.isShutDown = false → d.memory.classes.length + 1 < classLimit →
    ∀ info, info ∉ d.memory.classes → ∀ t,
      (d.memory.perform (.classId info) t).1 = .ok ⟨d.memory.classes.length + 1⟩

theorem Classed.table {d : Dialogue} (h : Classed d) : ClassTable d where
  inOrder := ⟨h.classes, h.distinct⟩
  numbered := fun _ _ => h.mem_registrations_iff
  ids := by
    rintro ⟨n⟩
    simp only [h.mem_registrations_iff, ClassId.mk.injEq]
    constructor
    · rintro ⟨info, i, hi, rfl⟩
      have hlt := (List.getElem?_eq_some_iff.mp hi).1
      omega
    · rintro ⟨hpos, hle⟩
      have hlt : n - 1 < d.memory.classes.length := by omega
      exact ⟨_, n - 1, List.getElem?_eq_getElem hlt, by omega⟩
  oneToOne := by
    intro info id info' id' hin hin'
    constructor
    · rintro rfl
      rw [h.registrations] at hin hin'
      exact Option.some.inj (hin.symm.trans hin')
    · rintro rfl
      rw [h.registrations, h.inverse] at hin hin'
      exact Except.ok.inj (hin.symm.trans hin')
  found := by
    intro hopen info id hin t
    have hid := (h.registrations info id).mp hin
    have hinfo := (h.inverse info id).mp hid
    rw [Memory.perform_of_open hopen, Memory.perform_of_open hopen]
    refine ⟨congrArg (·, d.memory) hinfo, ?_⟩
    rcases d.memory.classId_cases info with ⟨id', hid', heq⟩ | ⟨hnew, -⟩ | ⟨hnew, -⟩
    · rw [hid] at hid'
      obtain rfl := Option.some.inj hid'
      exact heq
    · rw [hid] at hnew
      cases hnew
    · rw [hid] at hnew
      cases hnew
  unknown := by
    intro hopen id hnone t
    have hinfo : ∀ info, d.memory.classInfo id ≠ .ok info := fun info heq =>
      hnone info ((h.registrations info id).mpr ((h.inverse info id).mpr heq))
    rw [Memory.perform_of_open hopen]
    exact congrArg (·, d.memory) (Memory.classInfo_eq_error hinfo)
  registers := by
    intro hopen hroom info hnot t
    rw [Memory.perform_of_open hopen]
    show (d.memory.classId info).1 = _
    rcases d.memory.classId_cases info with ⟨id, hid, -⟩ | ⟨-, -, heq⟩ | ⟨-, hfull, -⟩
    · exact absurd (h.mem_classes_iff.mpr ⟨id, hid⟩) hnot
    · rw [heq]
    · exact absurd hroom (Nat.not_lt.mpr hfull)

/-- What has been said stays said. -/
theorem Dialogue.said_grows (requests later : List Request) :
    (run requests).said <+: (run (requests ++ later)).said := by
  induction later using List.reverseRecOn with
  | nil => simp
  | append_singleton later r ih =>
      rw [← List.append_assoc, run_concat]
      exact ih.trans (List.prefix_append _ _)

/--
**The table of classes is one-to-one and permanent.**  Any number of transactions may have made any
calls in any order; they may have ended as they like, and calls may have failed.  `ClassTable` says
what is true of the table after that: the registered descriptions are numbered from one in the order in
which they were first registered, and look-ups go both ways until the backend is shut down.  And all
of what has been registered then is still registered after any calls that come later.
-/
theorem class_table (requests later : List Request) :
    ClassTable (Dialogue.run requests) ∧
      registrations (Dialogue.run requests).said <+:
        registrations (Dialogue.run (requests ++ later)).said :=
  ⟨(Classed.run requests).table, (Dialogue.said_grows requests later).filterMap _⟩

/-- One transaction registers two descriptions and aborts; another one asks for the second again, and
registers a third. -/
def threeClasses : List Request :=
  [⟨.classId [1], ⟨1⟩⟩, ⟨.classId [2], ⟨1⟩⟩, ⟨.abort, ⟨1⟩⟩, ⟨.classId [2], ⟨2⟩⟩, ⟨.classId [3], ⟨2⟩⟩]

example :
    registrations (Dialogue.run threeClasses).said =
        [([1], ⟨1⟩), ([2], ⟨2⟩), ([2], ⟨2⟩), ([3], ⟨3⟩)] ∧
      (Dialogue.run threeClasses).memory.classes = [[1], [2], [3]] := by
  decide

end ObjectStore
