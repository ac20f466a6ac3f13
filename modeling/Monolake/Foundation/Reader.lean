import Mathlib.Data.List.Basic

/-!
Readers: what is still to come is read in pieces of any size, and a read can fail. A
reader can be put behind items that come first, and items can be read until there are enough of
them.
-/
namespace Monolake.Foundation

universe u v w

/-- `yields` is what a reader that does not fail brings in the end. -/
class Reader (R : Type u) (α : outParam (Type v)) (E : outParam (Type w)) where
  read : R → Nat → Except E (List α × R)
  yields : R → List α

/-- A read brings the next items, no more than requested, and none only at the end or when
none are requested. -/
class LawfulReader (R : Type u) (α : outParam (Type v)) (E : outParam (Type w))
    [Reader R α E] : Prop where
  append {r r' : R} {n : Nat} {items : List α} (h : Reader.read r n = .ok (items, r')) :
    items ++ Reader.yields r' = Reader.yields r
  length_le {r r' : R} {n : Nat} {items : List α} (h : Reader.read r n = .ok (items, r')) :
    items.length ≤ n
  nil {r r' : R} {n : Nat} (h : Reader.read r n = .ok ([], r')) : n = 0 ∨ Reader.yields r = []

section
variable {R : Type u} {α : Type v} {E : Type w} [Reader R α E]

open Reader (read yields)

/-! Items in front of a reader. -/

structure Prefixed (R : Type u) (α : Type v) where
  first : List α
  behind : R

/-- The first items are read by themselves. -/
def Prefixed.take (r : Prefixed R α) (n : Nat) : Except E (List α × Prefixed R α) :=
  if r.first = [] then
    (Reader.read r.behind n).map fun (items, behind) => (items, { first := [], behind })
  else .ok (r.first.take n, { r with first := r.first.drop n })

instance : Reader (Prefixed R α) α E where
  read := Prefixed.take
  yields r := r.first ++ yields r.behind

theorem Prefixed.yields_eq (r : Prefixed R α) : yields r = r.first ++ yields r.behind := rfl

theorem Prefixed.taken {r r' : Prefixed R α} {n : Nat} {items : List α}
    (h : (read r n : Except E _) = .ok (items, r')) :
    r.first = [] ∧ r'.first = [] ∧ read r.behind n = .ok (items, r'.behind) ∨
      r.first ≠ [] ∧ items = r.first.take n ∧ r' = { r with first := r.first.drop n } := by
  change r.take n = _ at h
  rw [Prefixed.take] at h
  split at h
  · rename_i empty
    cases hread : Reader.read r.behind n with
    | error e => simp [hread, Except.map] at h
    | ok out =>
        simp only [hread, Except.map, Except.ok.injEq, Prod.mk.injEq] at h
        obtain ⟨rfl, rfl⟩ := h
        exact .inl ⟨empty, rfl, rfl⟩
  · rename_i some_first
    obtain ⟨rfl, rfl⟩ := Prod.mk.inj (Except.ok.inj h)
    exact .inr ⟨some_first, rfl, rfl⟩

instance [LawfulReader R α E] : LawfulReader (Prefixed R α) α E where
  append {r r' n items} h := by
    rw [Prefixed.yields_eq, Prefixed.yields_eq]
    obtain ⟨first, first', hread⟩ | ⟨-, rfl, rfl⟩ := Prefixed.taken h
    · rw [first, first', List.nil_append, List.nil_append]
      exact LawfulReader.append hread
    · rw [← List.append_assoc, List.take_append_drop]
  length_le {r r' n items} h := by
    obtain ⟨-, -, hread⟩ | ⟨-, rfl, -⟩ := Prefixed.taken h
    · exact LawfulReader.length_le hread
    · exact List.length_take_le n r.first
  nil {r r' n} h := by
    rw [Prefixed.yields_eq]
    obtain ⟨first, -, hread⟩ | ⟨some_first, none, -⟩ := Prefixed.taken h
    · rw [first, List.nil_append]
      exact LawfulReader.nil hread
    · exact .inl ((List.take_eq_nil_iff.mp none.symm).resolve_right some_first)

/-! Reading until there are enough items. -/

/-- `items` have been read, and `n` are wanted; `eof` when the end comes before. `none`
while the reading has not ended. -/
def readExact (eof : E) (n : Nat) : Nat → R → List α → Option (Except E (List α × R))
  | 0, _, _ => none
  | fuel + 1, r, items =>
      if items.length < n then
        match read r (n - items.length) with
        | .error e => some (.error e)
        | .ok (more, r) =>
            if more = [] then some (.error eof) else readExact eof n fuel r (items ++ more)
      else some (.ok (items, r))

section
variable [LawfulReader R α E]

/-- A read that brings something leaves less to come. -/
theorem Reader.length_yields {r r' : R} {n : Nat} {items : List α}
    (h : read r n = .ok (items, r')) :
    items.length + (yields r').length = (yields r).length := by
  rw [← LawfulReader.append h, List.length_append]

/-- As many rounds as items are missing, and one more, are enough. What is read is all that
there was, as far as it was wanted. -/
theorem readExact_spec (eof : E) (n : Nat) {fuel : Nat} {r : R} {items : List α}
    (few : items.length ≤ n) (enough : n - items.length < fuel) :
    ∃ out, readExact eof n fuel r items = some out ∧
      ∀ got r', out = .ok (got, r') → got.length = n ∧ got ++ yields r' = items ++ yields r := by
  induction fuel generalizing r items with
  | zero => exact absurd enough (Nat.not_lt_zero _)
  | succ fuel ih =>
      rw [readExact]
      split
      · rename_i missing
        cases hread : read r (n - items.length) with
        | error e => exact ⟨_, rfl, fun got r' h => nomatch h⟩
        | ok out =>
            obtain ⟨more, behind⟩ := out
            dsimp only
            split
            · exact ⟨_, rfl, fun got r' h => nomatch h⟩
            · rename_i some_more
              have brings := List.length_pos_of_ne_nil some_more
              have bound := LawfulReader.length_le hread
              have longer : (items ++ more).length = items.length + more.length :=
                List.length_append
              have few : (items ++ more).length ≤ n := by omega
              have enough : n - (items ++ more).length < fuel := by omega
              obtain ⟨out, runs, all⟩ := @ih behind _ few enough
              refine ⟨out, runs, fun got r' h => ?_⟩
              obtain ⟨length, same⟩ := all got r' h
              rw [List.append_assoc, LawfulReader.append hread] at same
              exact ⟨length, same⟩
      · refine ⟨_, rfl, fun got r' h => ?_⟩
        obtain ⟨rfl, rfl⟩ := Prod.mk.inj (Except.ok.inj h)
        exact ⟨by omega, rfl⟩

end

end

end Monolake.Foundation
