import Mathlib.Order.Bounds.Basic
import Monolake.Foundation.Runs

/-!
The values that a measure of states has had along a run. With a step that has one
outcome, every step adds one value to them, so that their greatest can be followed
from step to step.
-/
namespace Monolake.Foundation

universe u v w
variable {σ : Type u} {ℓ : Type v} {α : Type w}

/-- A label leads from a state to one state at most. -/
def Deterministic (step : σ → ℓ → σ → Prop) : Prop :=
  ∀ a l b b', step a l b → step a l b' → b = b'

/-- The values of `f` in the states of the run, its two ends included. -/
def Passed (step : σ → ℓ → σ → Prop) (s : σ) (f : σ → α) (tr : List ℓ) : Set α :=
  {n | ∃ past rest m, tr = past ++ rest ∧ Run step s past m ∧ f m = n}

section
variable {step : σ → ℓ → σ → Prop} {s : σ} {f : σ → α} {tr : List ℓ}

theorem Run.unique (det : Deterministic step) {a b : σ}
    (h : Run step s tr a) (k : Run step s tr b) : a = b := by
  induction h generalizing b with
  | nil =>
      generalize hx : ([] : List ℓ) = xs at k
      cases k with
      | nil => rfl
      | snoc => simp at hx
  | snoc _ hstep ih =>
      obtain ⟨m, hm, hstep'⟩ := snoc_inv k
      obtain rfl := ih hm
      exact det _ _ _ _ hstep hstep'

theorem passed_nil (det : Deterministic step) :
    Passed step s f [] = {f s} := by
  ext n
  constructor
  · rintro ⟨past, rest, m, split, run, rfl⟩
    obtain ⟨rfl, -⟩ := List.append_eq_nil_iff.mp split.symm
    rw [run.unique det .nil]
    rfl
  · rintro rfl
    exact ⟨[], [], s, rfl, .nil, rfl⟩

theorem passed_snoc (det : Deterministic step) {a b : σ} {l : ℓ}
    (run : Run step s tr a) (hstep : step a l b) :
    Passed step s f (tr ++ [l]) = insert (f b) (Passed step s f tr) := by
  ext n
  rw [Set.mem_insert_iff]
  constructor
  · rintro ⟨past, rest, m, split, run', rfl⟩
    induction rest using List.reverseRecOn with
    | nil =>
        rw [List.append_nil] at split
        subst split
        rw [run'.unique det (.snoc run hstep)]
        exact .inl rfl
    | append_singleton rest l' =>
        rw [← List.append_assoc] at split
        exact .inr ⟨past, rest, m, (List.append_inj' split rfl).1, run', rfl⟩
  · rintro (rfl | ⟨past, rest, m, rfl, run', rfl⟩)
    · exact ⟨_, [], b, (List.append_nil _).symm, .snoc run hstep, rfl⟩
    · exact ⟨past, rest ++ [l], m, List.append_assoc .., run', rfl⟩

end

end Monolake.Foundation
