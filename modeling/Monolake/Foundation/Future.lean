import Mathlib.Data.List.Induction

/-!
Futures that are polled. A poll can change the future itself and everything that
its context gives access to, and the context can be any other at the next poll. A
watched future keeps the answers that it gave.
-/
namespace Monolake.Foundation

universe u v w
variable {C : Type v} {F : Type u} {R : Type w}

/-- The trait `Future`, for polls in a context of type `C`. A poll is answered with the
result, or with `none` while that is pending. -/
class Future (C : Type v) (F : Type u) (R : outParam (Type w)) where
  poll : F → C → F × C × Option R

/-- Polls with one context after the other, until the future is ready. -/
def pollUntilReady [Future C F R] (future : F) : List C → F × Option R
  | [] => (future, none)
  | cx :: cxs =>
      match Future.poll future cx with
      | (future, _, some r) => (future, some r)
      | (future, _, none) => pollUntilReady future cxs

structure Watched (F : Type u) (R : Type w) where
  future : F
  answers : List (Option R)

namespace Watched

def new (future : F) : Watched F R := { future, answers := [] }

instance [Future C F R] : Future C (Watched F R) R where
  poll self cx :=
    let (future, cx, answer) := Future.poll self.future cx
    ({ future, answers := self.answers ++ [answer] }, cx, answer)

/-- The results that the future gave. -/
def results (self : Watched F R) : List R := self.answers.filterMap id

/-- It is not polled again when it was ready. -/
def Once (self : Watched F R) : Prop :=
  ∀ past r later, self.answers = past ++ some r :: later → later = []

section
variable [Future C F R] (self : Watched F R) (cx : C)

theorem poll_results :
    (Future.poll self cx).1.results =
      self.results ++ (Future.poll self cx).2.2.toList := by
  have added : (Future.poll self cx).1.answers = self.answers ++ [(Future.poll self cx).2.2] := rfl
  rw [results, added, List.filterMap_append]
  cases (Future.poll self cx).2.2 <;> rfl

/-- A future that has not been ready may be polled. -/
theorem poll_once (h : self.results = []) : (Future.poll self cx).1.Once := by
  intro past r later split
  change self.answers ++ [_] = _ at split
  induction later using List.reverseRecOn with
  | nil => rfl
  | append_singleton later answer =>
      rw [← List.cons_append, ← List.append_assoc] at split
      have before : self.answers = past ++ some r :: later := (List.append_inj' split rfl).1
      rw [results, before, List.filterMap_append] at h
      simp at h

end

end Watched

end Monolake.Foundation
