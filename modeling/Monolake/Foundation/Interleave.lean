import Mathlib.Logic.Function.Basic
import Monolake.Foundation.Runs

/-!
Any number of components of one kind, created at any time and taking their steps
in any order. Each component sees its own history only, so a property of a
component and its history that the component's own steps keep holds of all
components in every interleaving.
-/
namespace Monolake.Foundation

universe u v
variable {σ : Type u} {ℓ : Type v}

/-- A new component, or a step of the component at a position. -/
inductive Tagged (ℓ : Type v) where
  | create
  | on (i : Nat) (l : ℓ)

def interleave (step : σ → ℓ → σ → Prop) (init : σ) (all : List σ) :
    Tagged ℓ → List σ → Prop
  | .create, all' => all' = all ++ [init]
  | .on i l, all' => ∃ s s', all[i]? = some s ∧ step s l s' ∧ all' = all.set i s'

/-- The history of one component. -/
def labelsOf (i : Nat) (tr : List (Tagged ℓ)) : List ℓ :=
  tr.filterMap fun
    | .create => none
    | .on j l => if j = i then some l else none

section
variable {step : σ → ℓ → σ → Prop} {init : σ} {all all' : List σ} {tr : List (Tagged ℓ)}

@[simp] theorem labelsOf_create (i : Nat) : labelsOf i (tr ++ [.create]) = labelsOf i tr := by
  simp [labelsOf]

@[simp] theorem labelsOf_on_self (i : Nat) (l : ℓ) :
    labelsOf i (tr ++ [.on i l]) = labelsOf i tr ++ [l] := by
  simp [labelsOf]

theorem labelsOf_on_other {i j : Nat} (h : j ≠ i) (l : ℓ) :
    labelsOf i (tr ++ [.on j l]) = labelsOf i tr := by
  simp [labelsOf, h]

/-- A position without a component has no history. -/
theorem labelsOf_absent (h : Run (interleave step init) [] tr all) {i : Nat}
    (hi : all.length ≤ i) : labelsOf i tr = [] := by
  induction h with
  | nil => rfl
  | @snoc tr mid l _ _ hstep ih =>
      cases l with
      | create =>
          rw [hstep, List.length_append] at hi
          rw [labelsOf_create]
          exact ih (by omega)
      | on j l =>
          obtain ⟨s, s', hs, -, rfl⟩ := hstep
          have hj := (List.getElem?_eq_some_iff.mp hs).1
          rw [List.length_set] at hi
          rw [labelsOf_on_other (by omega)]
          exact ih hi

/-- The rule of interleavings: what steps keep as long as they are allowed holds
of every component, when every step taken was allowed. -/
theorem interleave_history {I : List ℓ → σ → Prop} {A : List ℓ → σ → ℓ → Prop}
    (start : I [] init)
    (keeps : ∀ own s l s', I own s → step s l s' → A own s l → I (own ++ [l]) s')
    (h : Run (interleave step init) [] tr all)
    (allowed : ∀ past i l rest mid mid' s, tr = past ++ .on i l :: rest →
      Run (interleave step init) [] past mid → interleave step init mid (.on i l) mid' →
      mid[i]? = some s → A (labelsOf i past) s l) :
    ∀ i s, all[i]? = some s → I (labelsOf i tr) s := by
  induction h with
  | nil => simp
  | @snoc tr mid l all' hrun hstep ih =>
      have before := ih fun past i l' rest m m' s htr =>
        allowed past i l' (rest ++ [l]) m m' s (by rw [htr]; simp)
      intro i s hi
      cases l with
      | create =>
          subst hstep
          rw [labelsOf_create]
          by_cases hlt : i < mid.length
          · rw [List.getElem?_append_left hlt] at hi
            exact before i s hi
          · have absent := labelsOf_absent hrun (Nat.le_of_not_lt hlt)
            rw [List.getElem?_append_right (Nat.le_of_not_lt hlt)] at hi
            rw [List.mem_singleton.mp (List.mem_of_getElem? hi), absent]
            exact start
      | on j l =>
          have step_taken := hstep
          obtain ⟨a, b, ha, hab, rfl⟩ := hstep
          have hj := (List.getElem?_eq_some_iff.mp ha).1
          by_cases hij : j = i
          · subst hij
            rw [List.getElem?_set_self hj] at hi
            obtain rfl := Option.some.inj hi
            rw [labelsOf_on_self]
            exact keeps _ a l b (before j a ha) hab
              (allowed tr j l [] mid _ a rfl hrun step_taken ha)
          · rw [List.getElem?_set_ne hij] at hi
            rw [labelsOf_on_other hij]
            exact before i s hi

end

/-- Components in a table: what holds of every entry holds of every entry after
one has been written with it. -/
theorem every_update {ι : Type u} {α : Type v} [DecidableEq ι] {P : ι → α → Prop}
    {table : ι → Option α} (every : ∀ i a, table i = some a → P i a) {i : ι} {a : α}
    (ha : P i a) : ∀ j b, Function.update table i (some a) j = some b → P j b := by
  intro j b hb
  by_cases hij : j = i
  · subst hij
    rw [Function.update_self] at hb
    obtain rfl := Option.some.inj hb
    exact ha
  · rw [Function.update_of_ne hij] at hb
    exact every j b hb

end Monolake.Foundation
