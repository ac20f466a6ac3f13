import Mathlib.Data.List.Induction

/-!
Finite runs of a labelled step relation, kept together with the list of labels
they performed. Invariants of states, and relations between a state and the
whole history that led to it, are each established from one step here, so that
a system's own modules supply the step lemma only.
-/
namespace Monolake.Foundation

universe u v w
variable {σ : Type u} {ℓ : Type v}

/-- `Run step s tr s'`: the labels `tr`, in order, lead from `s` to `s'`. -/
inductive Run (step : σ → ℓ → σ → Prop) (s : σ) : List ℓ → σ → Prop
  | nil : Run step s [] s
  | snoc {tr : List ℓ} {m : σ} {l : ℓ} {s' : σ} :
      Run step s tr m → step m l s' → Run step s (tr ++ [l]) s'

namespace Run
variable {step : σ → ℓ → σ → Prop}

theorem single {s s' : σ} {l : ℓ} (h : step s l s') : Run step s [l] s' :=
  .snoc .nil h

theorem append {a b c : σ} {xs ys : List ℓ}
    (h : Run step a xs b) (k : Run step b ys c) : Run step a (xs ++ ys) c := by
  induction k with
  | nil => simpa using h
  | snoc _ hstep ih =>
      rw [← List.append_assoc]
      exact .snoc ih hstep

theorem cons {a b c : σ} {l : ℓ} {xs : List ℓ} (h : step a l b) (k : Run step b xs c) :
    Run step a (l :: xs) c :=
  (single h).append k

theorem snoc_inv {a c : σ} {xs : List ℓ} {l : ℓ}
    (h : Run step a (xs ++ [l]) c) : ∃ b, Run step a xs b ∧ step b l c := by
  generalize hx : xs ++ [l] = ys at h
  cases h with
  | nil => simp at hx
  | snoc hrun hstep =>
      obtain ⟨rfl, rfl⟩ := List.concat_inj.mp (by simpa using hx)
      exact ⟨_, hrun, hstep⟩

theorem append_inv {a c : σ} {xs ys : List ℓ}
    (h : Run step a (xs ++ ys) c) : ∃ b, Run step a xs b ∧ Run step b ys c := by
  induction ys using List.reverseRecOn generalizing c with
  | nil => exact ⟨c, by simpa using h, .nil⟩
  | append_singleton ys l ih =>
      rw [← List.append_assoc] at h
      obtain ⟨m, hm, hstep⟩ := snoc_inv h
      obtain ⟨b, hb, hbm⟩ := ih hm
      exact ⟨b, hb, .snoc hbm hstep⟩

/-- Every position of a run exhibits the step taken there. -/
theorem split {a c : σ} {xs ys : List ℓ} {l : ℓ}
    (h : Run step a (xs ++ l :: ys) c) :
    ∃ b b', Run step a xs b ∧ step b l b' ∧ Run step b' ys c := by
  rw [← List.singleton_append, ← List.append_assoc] at h
  obtain ⟨b', hb', hrest⟩ := append_inv h
  obtain ⟨b, hb, hstep⟩ := snoc_inv hb'
  exact ⟨b, b', hb, hstep, hrest⟩

/-- A property of states that every step keeps holds at the end of a run. -/
theorem invariant {I : σ → Prop} (keeps : ∀ a l b, I a → step a l b → I b)
    {s s' : σ} {tr : List ℓ} (h : Run step s tr s') (hs : I s) : I s' := by
  induction h with
  | nil => exact hs
  | snoc _ hstep ih => exact keeps _ _ _ ih hstep

/-- The same for a relation between the labels performed so far and the state. -/
theorem history {I : List ℓ → σ → Prop} {s : σ} (start : I [] s)
    (keeps : ∀ tr a l b, Run step s tr a → I tr a → step a l b → I (tr ++ [l]) b)
    {s' : σ} {tr : List ℓ} (h : Run step s tr s') : I tr s' := by
  induction h with
  | nil => exact start
  | snoc hrun hstep ih => exact keeps _ _ _ _ hrun ih hstep

/-- A relation on the states around each step accumulates along a run when it is
reflexive and transitive. -/
theorem monotone {R : σ → σ → Prop} (refl : ∀ a, R a a)
    (trans : ∀ a b c, R a b → R b c → R a c)
    (grows : ∀ a l b, step a l b → R a b)
    {s s' : σ} {tr : List ℓ} (h : Run step s tr s') : R s s' := by
  induction h with
  | nil => exact refl _
  | snoc _ hstep ih => exact trans _ _ _ ih (grows _ _ _ hstep)

end Run

/-- Somewhere in the history `l` was performed, in a state with property `P`. -/
def PerformedIn (step : σ → ℓ → σ → Prop) (s : σ) (tr : List ℓ) (l : ℓ) (P : σ → Prop) : Prop :=
  ∃ past rest m, tr = past ++ l :: rest ∧ Run step s past m ∧ P m

section
variable {step : σ → ℓ → σ → Prop} {s : σ} {tr : List ℓ} {l : ℓ} {P : σ → Prop}

theorem PerformedIn.later (h : PerformedIn step s tr l P) (l' : ℓ) :
    PerformedIn step s (tr ++ [l']) l P := by
  obtain ⟨past, rest, m, rfl, run, hm⟩ := h
  exact ⟨past, rest ++ [l'], m, by simp, run, hm⟩

theorem performedIn_last {m : σ} (run : Run step s tr m) (hm : P m) :
    PerformedIn step s (tr ++ [l]) l P :=
  ⟨tr, [], m, rfl, run, hm⟩

end

/-- Forward simulation, step by step: `R` relates the states of two systems and
every concrete step is answered by an abstract step with the related label. -/
theorem Run.simulate {τ : Type w} {step : σ → ℓ → σ → Prop} {spec : τ → ℓ → τ → Prop}
    {R : σ → τ → Prop}
    (answer : ∀ a l b t, R a t → step a l b → ∃ t', spec t l t' ∧ R b t')
    {s s' : σ} {t : τ} {tr : List ℓ} (h : Run step s tr s') (hs : R s t) :
    ∃ t', Run spec t tr t' ∧ R s' t' := by
  induction h with
  | nil => exact ⟨t, .nil, hs⟩
  | snoc _ hstep ih =>
      obtain ⟨m, hm, hR⟩ := ih
      obtain ⟨t', ht', hR'⟩ := answer _ _ _ _ hR hstep
      exact ⟨t', .snoc hm ht', hR'⟩

end Monolake.Foundation
