import Mathlib.Data.Int.CardIntervalMod

/-!
Counting. Every window of a cyclic order has each position as often as any
other, up to one; and the running sums of a list of weights cut the numbers below
their total into intervals of these lengths.
-/
namespace Monolake.Foundation

universe u

/-! Cyclic orders. -/

/-- The positions of a cycle of length `n` in their order, from `start` on. -/
def Cyclic (n start : Nat) (l : List Nat) : Prop :=
  l = (List.range' start l.length).map (· % n)

theorem cyclic_nil (n start : Nat) : Cyclic n start [] := rfl

theorem cyclic_append_iff {n start : Nat} {l l' : List Nat} :
    Cyclic n start (l ++ l') ↔ Cyclic n start l ∧ Cyclic n (start + l.length) l' := by
  rw [Cyclic, List.length_append, ← List.range'_append_1, List.map_append]
  constructor
  · intro h
    have same : l.length = ((List.range' start l.length).map (· % n)).length := by simp
    exact List.append_inj h same
  · rintro ⟨h, h'⟩
    exact congrArg₂ (· ++ ·) h h'

theorem cyclic_cons_iff {n start i : Nat} {l : List Nat} :
    Cyclic n start (i :: l) ↔ i = start % n ∧ Cyclic n (start + 1) l := by
  rw [Cyclic, Cyclic, List.length_cons, List.range'_succ, List.map_cons, List.cons.injEq]

/-- In a window of a cyclic order every position is found as often as the length
of the cycle goes into that of the window, rounded down or up. -/
theorem Cyclic.count {n start : Nat} {l : List Nat} (h : Cyclic n start l) {i : Nat} (hi : i < n) :
    l.count i = l.length / n ∨ l.count i = (l.length + n - 1) / n := by
  have hn : 0 < n := Nat.zero_lt_of_lt hi
  -- the position that comes first in a cycle from `start` on takes the place of 0
  have shifted : ∀ k, (start + k) % n = i ↔ k ≡ i + (n - start % n) [MOD n] := by
    intro k
    have whole : start + (i + (n - start % n)) = i + n * (start / n + 1) := by
      have parts := Nat.mod_add_div start n
      have small := Nat.mod_lt start hn
      rw [Nat.mul_add, Nat.mul_one]
      omega
    have round : start + (i + (n - start % n)) ≡ i [MOD n] := by
      rw [whole]
      exact Nat.add_mul_mod_self_left ..
    constructor
    · intro hk
      have hk' : start + k ≡ i [MOD n] := by
        rw [Nat.ModEq, hk, Nat.mod_eq_of_lt hi]
      exact (hk'.trans round.symm).add_left_cancel' start
    · intro hk
      have hk' : start + k ≡ i [MOD n] := (hk.add_left start).trans round
      rw [Nat.ModEq, Nat.mod_eq_of_lt hi] at hk'
      exact hk'
  have counted : l.count i = l.length.count (· ≡ i + (n - start % n) [MOD n]) := by
    rw [h, List.length_map, List.length_range', List.count, List.countP_map,
      List.range'_eq_map_range, List.countP_map, Nat.count]
    refine List.countP_congr fun k _ => ?_
    simp [shifted]
  have up : (l.length + n - 1) / n = l.length / n + if l.length % n = 0 then 0 else 1 := by
    have parts := Nat.mod_add_div l.length n
    have small := Nat.mod_lt l.length hn
    have split : l.length + n - 1 = (l.length % n + n - 1) + n * (l.length / n) := by omega
    rw [split, Nat.add_mul_div_left _ _ hn]
    split
    · rename_i whole
      rw [whole, Nat.div_eq_of_lt (by omega)]
      omega
    · rename_i more
      have once : (l.length % n + n - 1) / n = 1 :=
        Nat.div_eq_of_lt_le (by omega) (by omega)
      omega
  rw [counted, Nat.count_modEq_card _ hn, up]
  split
  · right
    rw [if_neg (by omega)]
  · exact .inl rfl

theorem Cyclic.window {n start : Nat} {l window : List Nat} (h : Cyclic n start l)
    (hw : window <:+: l) : ∃ start', Cyclic n start' window := by
  obtain ⟨before, after, rfl⟩ := hw
  exact ⟨_, (cyclic_append_iff.mp (cyclic_append_iff.mp h).1).2⟩

/-! Running sums. -/

/-- `acc + w₀`, `acc + w₀ + w₁` and so on. -/
def runningSums {X : Type u} [Add X] (acc : X) : List X → List X
  | [] => []
  | w :: ws => (acc + w) :: runningSums (acc + w) ws

theorem length_runningSums {X : Type u} [Add X] (acc : X) (ws : List X) :
    (runningSums acc ws).length = ws.length := by
  induction ws generalizing acc with
  | nil => rfl
  | cons w ws ih => rw [runningSums, List.length_cons, List.length_cons, ih]

/-- The last running sum is the total. -/
theorem total_mem_runningSums {X : Type u} [AddMonoid X] (acc : X) {ws : List X} (h : ws ≠ []) :
    acc + ws.sum ∈ runningSums acc ws := by
  induction ws generalizing acc with
  | nil => exact absurd rfl h
  | cons w ws ih =>
      rw [runningSums, List.sum_cons, ← add_assoc]
      cases ws with
      | nil => simp
      | cons w' ws => exact List.mem_cons_of_mem _ (ih _ (List.cons_ne_nil _ _))

theorem runningSums_add (a acc : Nat) (ws : List Nat) :
    runningSums (a + acc) ws = (runningSums acc ws).map (a + ·) := by
  induction ws generalizing acc with
  | nil => rfl
  | cons w ws ih =>
      rw [runningSums, runningSums, List.map_cons, ← ih, Nat.add_assoc]

/-- The interval that a number below the total is in, by its position. -/
theorem countP_runningSums_cons (w : Nat) (ws : List Nat) (r : Nat) :
    (runningSums 0 (w :: ws)).countP (· ≤ r) =
      if r < w then 0 else (runningSums 0 ws).countP (· ≤ r - w) + 1 := by
  rw [runningSums, Nat.zero_add, ← Nat.add_zero w, runningSums_add, Nat.add_zero,
    List.countP_cons, List.countP_map]
  by_cases small : r < w
  · have none_below : (runningSums 0 ws).countP ((fun x => decide (x ≤ r)) ∘ (w + ·)) = 0 :=
      List.countP_eq_zero.mpr fun x _ => by
        simp only [Function.comp_apply, decide_eq_true_eq]
        omega
    rw [none_below, if_neg (by simpa using small), if_pos small]
  · rw [if_pos (by simpa using small), if_neg small]
    refine congrArg (· + 1) (List.countP_congr fun x _ => ?_)
    simp only [Function.comp_apply, decide_eq_true_eq]
    omega

theorem countP_runningSums_lt {ws : List Nat} {r : Nat} (h : r < ws.sum) :
    (runningSums 0 ws).countP (· ≤ r) < ws.length := by
  induction ws generalizing r with
  | nil => exact absurd h (Nat.not_lt_zero r)
  | cons w ws ih =>
      rw [List.sum_cons] at h
      rw [countP_runningSums_cons, List.length_cons]
      split
      · exact Nat.succ_pos _
      · exact Nat.succ_lt_succ (ih (by omega))

/-- Exactly `ws[i]` of the numbers below the total have `i` running sums that are
not above them. -/
theorem count_runningSums (ws : List Nat) {i : Nat} (hi : i < ws.length) :
    ws.sum.count (fun r => (runningSums 0 ws).countP (· ≤ r) = i) = ws[i] := by
  induction ws generalizing i with
  | nil => exact absurd hi (Nat.not_lt_zero i)
  | cons w ws ih =>
      have first : ∀ r < w, (runningSums 0 (w :: ws)).countP (· ≤ r) = 0 := by
        intro r hr
        rw [countP_runningSums_cons, if_pos hr]
      have later : ∀ r, (runningSums 0 (w :: ws)).countP (· ≤ w + r) =
          (runningSums 0 ws).countP (· ≤ r) + 1 := by
        intro r
        rw [countP_runningSums_cons, if_neg (by omega), Nat.add_sub_cancel_left]
      rw [List.sum_cons, Nat.count_add]
      cases i with
      | zero =>
          have all : w.count (fun r => (runningSums 0 (w :: ws)).countP (· ≤ r) = 0) = w :=
            Nat.count_iff_forall.mpr first
          have none_later : ws.sum.count
              (fun r => (runningSums 0 (w :: ws)).countP (· ≤ w + r) = 0) = 0 :=
            Nat.count_iff_forall_not.mpr fun r _ => by
              rw [later r]
              exact Nat.succ_ne_zero _
          rw [all, none_later]
          rfl
      | succ i =>
          have none_first : w.count
              (fun r => (runningSums 0 (w :: ws)).countP (· ≤ r) = i + 1) = 0 :=
            Nat.count_iff_forall_not.mpr fun r hr => by
              rw [first r hr]
              exact (Nat.succ_ne_zero i).symm
          simp only [none_first, later, Nat.add_right_cancel_iff, Nat.zero_add]
          exact ih (Nat.lt_of_succ_lt_succ hi)

end Monolake.Foundation
