/-
Logs in which every event fits those before it.

What may come after what is said once for each kind of event, as a predicate on the events that came
before.  A log grows at its end, so one checks a new event and nothing else; and of an event anywhere
in the log one knows that it fits what stands before it.
-/
import Mathlib.Data.List.Induction

namespace ObjectStore

variable {α : Type} {Fits : List α → α → Prop} {log events : List α}

/-- Every event fits those that came before it. -/
inductive InOrder (Fits : List α → α → Prop) : List α → Prop where
  | nil : InOrder Fits []
  | concat {log : List α} {e : α} (h : InOrder Fits log) (he : Fits log e) :
    InOrder Fits (log ++ [e])

namespace InOrder

theorem fits (h : InOrder Fits log) : ∀ {before after : List α} {e : α},
    log = before ++ e :: after → Fits before e := by
  induction h with
  | nil =>
      intro before after e heq
      exact absurd heq (by simp)
  | @concat log last h hlast ih =>
      intro before after e heq
      rcases List.eq_nil_or_concat after with rfl | ⟨after, other, rfl⟩
      · obtain ⟨rfl, hsame⟩ := List.append_inj' heq rfl
        obtain rfl : last = e := by simpa using hsame
        exact hlast
      · rw [List.concat_eq_append, ← List.cons_append, ← List.append_assoc] at heq
        exact ih (List.append_inj' heq rfl).1

theorem mono {Fits' : List α → α → Prop} (h : InOrder Fits log)
    (himp : ∀ before e, Fits before e → Fits' before e) : InOrder Fits' log := by
  induction h with
  | nil => exact .nil
  | concat _ he ih => exact .concat ih (himp _ _ he)

theorem append (h : InOrder Fits log) (hevents : ∀ e ∈ events, ∀ before, Fits before e) :
    InOrder Fits (log ++ events) := by
  induction events using List.reverseRecOn with
  | nil => rwa [List.append_nil]
  | append_singleton events e ih =>
      rw [← List.append_assoc]
      exact .concat (ih fun e' he' => hevents e' (by simp [he'])) (hevents e (by simp) _)

end InOrder

end ObjectStore
