import Mathlib.Data.List.Induction

/-!
The latest event of a history that a partial observer recognises, together with
the history before it. Specifications of the form "the value set by the last
event of this kind" are stated with it over arbitrary event types.
-/
namespace Monolake.Foundation

universe u v
variable {α : Type u} {β : Type v}

/-- The last event `e` of the history with `f e = some b`, as the history
before `e` paired with `b`. -/
def latest (f : α → Option β) : List α → Option (List α × β)
  | [] => none
  | e :: es =>
      match latest f es with
      | some (pre, b) => some (e :: pre, b)
      | none => (f e).map fun b => ([], b)

@[simp] theorem latest_nil (f : α → Option β) : latest f [] = none := rfl

theorem latest_snoc (f : α → Option β) (es : List α) (e : α) :
    latest f (es ++ [e]) =
      match f e with
      | some b => some (es, b)
      | none => latest f es := by
  induction es with
  | nil => cases h : f e <;> simp [latest, h]
  | cons x xs ih =>
      cases h : f e with
      | some b => simp [latest, ih, h]
      | none => simp [latest, ih, h]

theorem latest_snoc_some {f : α → Option β} {e : α} {b : β} (h : f e = some b)
    (es : List α) : latest f (es ++ [e]) = some (es, b) := by
  rw [latest_snoc, h]

theorem latest_snoc_none {f : α → Option β} {e : α} (h : f e = none)
    (es : List α) : latest f (es ++ [e]) = latest f es := by
  rw [latest_snoc, h]

/-- What `latest` returns is an event of the history, and nothing recognised
comes after it. -/
theorem latest_eq_some {f : α → Option β} {es pre : List α} {b : β}
    (h : latest f es = some (pre, b)) :
    ∃ e post, es = pre ++ e :: post ∧ f e = some b ∧ ∀ x ∈ post, f x = none := by
  induction es using List.reverseRecOn with
  | nil => simp at h
  | append_singleton es e ih =>
      rw [latest_snoc] at h
      cases hf : f e with
      | some c =>
          simp only [hf, Option.some.injEq, Prod.mk.injEq] at h
          obtain ⟨rfl, rfl⟩ := h
          exact ⟨e, [], rfl, hf, by simp⟩
      | none =>
          simp only [hf] at h
          obtain ⟨x, post, rfl, hx, hpost⟩ := ih h
          refine ⟨x, post ++ [e], by simp, hx, ?_⟩
          intro y hy
          rcases List.mem_append.mp hy with hy | hy
          · exact hpost y hy
          · rw [List.mem_singleton.mp hy, hf]

end Monolake.Foundation
