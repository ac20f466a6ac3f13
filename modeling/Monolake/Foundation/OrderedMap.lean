import Mathlib.Data.List.Nodup
import Mathlib.Logic.Function.Basic

/-!
Insertion-ordered maps: a value for each of finitely many keys, and the order in
which the keys were inserted. New keys go to the end, and removing a key leaves
the order of the others alone.
-/
namespace Monolake.Foundation

universe u v

structure OrderedMap (κ : Type u) (α : Type v) where
  keys : List κ
  value : κ → Option α
  nodup : keys.Nodup
  mem_keys : ∀ k, k ∈ keys ↔ value k ≠ none

namespace OrderedMap
variable {κ : Type u} {α : Type v}

def empty : OrderedMap κ α :=
  { keys := [], value := fun _ => none, nodup := .nil, mem_keys := by simp }

/-- The values in order of insertion. -/
def values (m : OrderedMap κ α) : List α := m.keys.filterMap m.value

theorem value_eq_none {m : OrderedMap κ α} {k : κ} : m.value k = none ↔ k ∉ m.keys := by
  rw [m.mem_keys, not_not]

/-- Keys with their values, in order of insertion. -/
def entries (m : OrderedMap κ α) : List (κ × α) :=
  m.keys.filterMap fun k => (m.value k).map (Prod.mk k)

theorem entries_keys (m : OrderedMap κ α) : m.entries.map Prod.fst = m.keys := by
  have onto : ∀ l : List κ, (∀ k ∈ l, m.value k ≠ none) →
      (l.filterMap fun k => (m.value k).map (Prod.mk k)).map Prod.fst = l := by
    intro l h
    induction l with
    | nil => rfl
    | cons k l ih =>
        obtain ⟨v, hv⟩ := Option.ne_none_iff_exists'.mp (h k (by simp))
        simp [hv, ih fun j hj => h j (List.mem_cons_of_mem k hj)]
  exact onto m.keys fun k => (m.mem_keys k).mp

theorem entries_values (m : OrderedMap κ α) : m.entries.map Prod.snd = m.values := by
  simp [entries, values, List.map_filterMap, Function.comp_def]

theorem mem_entries {m : OrderedMap κ α} {e : κ × α} (h : e ∈ m.entries) :
    m.value e.1 = some e.2 := by
  obtain ⟨k, -, hk⟩ := List.mem_filterMap.mp h
  obtain ⟨v, hv, rfl⟩ := Option.map_eq_some_iff.mp hk
  exact hv

variable [DecidableEq κ]

def insert (m : OrderedMap κ α) (k : κ) (v : α) (fresh : k ∉ m.keys) : OrderedMap κ α where
  keys := m.keys ++ [k]
  value := Function.update m.value k (some v)
  nodup := List.nodup_append.mpr
    ⟨m.nodup, List.nodup_singleton k, fun a ha b hb heq =>
      fresh (List.mem_singleton.mp hb ▸ heq ▸ ha)⟩
  mem_keys := by
    intro j
    by_cases h : j = k
    · simp [h]
    · rw [Function.update_of_ne h, ← m.mem_keys]
      simp [h]

def erase (m : OrderedMap κ α) (k : κ) : OrderedMap κ α where
  keys := m.keys.erase k
  value := Function.update m.value k none
  nodup := m.nodup.erase k
  mem_keys := by
    intro j
    rw [m.nodup.mem_erase_iff]
    by_cases h : j = k
    · simp [h]
    · rw [Function.update_of_ne h, ← m.mem_keys]
      simp [h]

def modify (m : OrderedMap κ α) (k : κ) (f : α → α) : OrderedMap κ α where
  keys := m.keys
  value := Function.update m.value k ((m.value k).map f)
  nodup := m.nodup
  mem_keys := by
    intro j
    by_cases h : j = k
    · subst h
      rw [Function.update_self, ne_eq, Option.map_eq_none_iff]
      exact m.mem_keys j
    · rw [Function.update_of_ne h]
      exact m.mem_keys j

theorem erase_of_not_mem {m : OrderedMap κ α} {k : κ} (h : k ∉ m.keys) : m.erase k = m := by
  obtain ⟨keys, value, nodup, mem_keys⟩ := m
  have hv : value k = none := value_eq_none (m := ⟨keys, value, nodup, mem_keys⟩).mpr h
  simp only [erase, mk.injEq]
  exact ⟨List.erase_of_not_mem h, Function.update_eq_self_iff.mpr hv.symm⟩

theorem modify_of_not_mem {m : OrderedMap κ α} {k : κ} (f : α → α) (h : k ∉ m.keys) :
    m.modify k f = m := by
  obtain ⟨keys, value, nodup, mem_keys⟩ := m
  have hv : value k = none := value_eq_none (m := ⟨keys, value, nodup, mem_keys⟩).mpr h
  simp only [modify, mk.injEq, true_and]
  exact Function.update_eq_self_iff.mpr (by rw [hv, Option.map_none])

end OrderedMap

end Monolake.Foundation
