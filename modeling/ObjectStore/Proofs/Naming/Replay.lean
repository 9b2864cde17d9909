/-
What point operations on names answer when they run one after another.

A point operation looks up, binds or unbinds one name.  Its answer, and what it leaves bound, depend
on what the name was bound to before and on nothing else.  A transcript records operations with
their answers; `Replays` says that running them in order gives these answers, and what is bound in
the end.
-/
import Mathlib.Logic.Function.Basic
import ObjectStore.Store.Operation

namespace ObjectStore

/-- What each name is bound to. -/
abbrev Bindings := Name → Option ObjectId

/-- Operations and the answers they gave, in order. -/
abbrev Transcript := List (Operation × Except StoreError Reply)

namespace Operation

/-- The name that a point operation is about. -/
def name? : Operation → Option Name
  | getBinding name => some name
  | setBinding name _ => some name
  | removeBinding name => some name
  | _ => none

/-- What a point operation answers, and what it leaves bound, where `before` was bound. -/
def effect (before : Option ObjectId) : Operation → Except StoreError Reply × Option ObjectId
  | getBinding name =>
    match before with
    | some oid => (.ok (.object oid), some oid)
    | none => (.error (.nameNotBound name), none)
  | setBinding _ oid => (.ok .done, some oid)
  | removeBinding name =>
    match before with
    | some _ => (.ok .done, none)
    | none => (.error (.nameNotBound name), none)
  | _ => (.ok .done, before)

end Operation

/-- Running the operations on `b` gives their recorded answers and leaves `b'`. -/
inductive Replays : Bindings → Transcript → Bindings → Prop where
  | nil (b : Bindings) : Replays b [] b
  | cons {b b' : Bindings} {op : Operation} {name : Name} {rest : Transcript}
    (hname : op.name? = some name)
    (hrest : Replays (Function.update b name (op.effect (b name)).2) rest b') :
    Replays b ((op, (op.effect (b name)).1) :: rest) b'

namespace Replays

variable {b b' b'' : Bindings} {transcript transcript' : Transcript}

theorem append (h : Replays b transcript b') (h' : Replays b' transcript' b'') :
    Replays b (transcript ++ transcript') b'' := by
  induction h with
  | nil => exact h'
  | cons hname _ ih => exact .cons hname (ih h')

theorem concat (h : Replays b transcript b') {op : Operation} {name : Name}
    (hname : op.name? = some name) :
    Replays b (transcript ++ [(op, (op.effect (b' name)).1)])
      (Function.update b' name (op.effect (b' name)).2) :=
  h.append (.cons hname (.nil _))

/-- A transcript depends on the names it is about, and leaves all others as they are. -/
theorem congr (h : Replays b transcript b') {p : Name → Prop}
    (habout : ∀ entry ∈ transcript, ∀ name, entry.1.name? = some name → p name) {c c' : Bindings}
    (hstart : ∀ name, p name → c name = b name) (hend : ∀ name, p name → c' name = b' name)
    (hother : ∀ name, ¬ p name → c' name = c name) : Replays c transcript c' := by
  induction h generalizing c with
  | nil b =>
      have heq : c' = c := by
        funext name
        by_cases hp : p name
        · exact (hend name hp).trans (hstart name hp).symm
        · exact hother name hp
      rw [heq]
      exact .nil c
  | @cons b b' op name rest hname _ ih =>
      have hp : p name := habout _ List.mem_cons_self name hname
      rw [← hstart name hp]
      refine .cons hname (ih (fun entry hentry => habout entry (List.mem_cons_of_mem _ hentry)) ?_
        hend ?_)
      · intro name' hp'
        by_cases heq : name' = name
        · rw [heq, Function.update_self, Function.update_self, hstart name hp]
        · rw [Function.update_of_ne heq, Function.update_of_ne heq]
          exact hstart name' hp'
      · intro name' hp'
        have hne : name' ≠ name := fun heq => hp' (heq ▸ hp)
        rw [Function.update_of_ne hne]
        exact hother name' hp'

/-- Where operations are run from determines what they answer and leave. -/
theorem unique (h : Replays b transcript b') (h' : Replays b transcript' b'')
    (hops : transcript.map Prod.fst = transcript'.map Prod.fst) :
    transcript = transcript' ∧ b' = b'' := by
  induction h generalizing transcript' with
  | nil b =>
      obtain rfl : transcript' = [] := List.map_eq_nil_iff.mp hops.symm
      cases h'
      exact ⟨rfl, rfl⟩
  | @cons b b' op name rest hname _ ih =>
      cases h' with
      | nil => exact absurd hops (by simp)
      | @cons _ _ op' name' rest' hname' hrest' =>
          obtain ⟨rfl, hops'⟩ := List.cons.inj hops
          obtain rfl : name = name' := Option.some.inj (hname.symm.trans hname')
          obtain ⟨rfl, rfl⟩ := ih hrest' hops'
          exact ⟨rfl, rfl⟩

end Replays

end ObjectStore
