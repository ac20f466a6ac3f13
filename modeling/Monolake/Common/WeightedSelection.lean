import Monolake.Common.Selector
import Monolake.Foundation.Counting
import Mathlib.Data.UInt

/-!
Weighted selection. The distribution adds the weights up in sixteen bits: the
configured weights are honoured exactly when their sum fits.
-/
namespace Monolake.Common

universe u v w
open Foundation
variable {T : Type u} {U : Type v} {D : Type w}

/-- The sum of the weights as natural numbers. -/
def exactSum (weights : List UInt16) : Nat := (weights.map UInt16.toNat).sum

theorem ne_nil_of_exactSum {weights : List UInt16} (h : 0 < exactSum weights) : weights ≠ [] := by
  rintro rfl
  exact Nat.lt_irrefl 0 h

theorem toNat_sum (weights : List UInt16) : weights.sum.toNat = exactSum weights % 2 ^ 16 := by
  induction weights with
  | nil => rfl
  | cons w weights ih =>
      rw [List.sum_cons, UInt16.toNat_add, ih, exactSum, exactSum, List.map_cons, List.sum_cons,
        Nat.add_mod_mod]

/-- Running sums that fit the type are those of the natural numbers. -/
theorem map_toNat_runningSums {acc : UInt16} {weights : List UInt16}
    (fits : acc.toNat + exactSum weights < 2 ^ 16) :
    (runningSums acc weights).map UInt16.toNat =
      runningSums acc.toNat (weights.map UInt16.toNat) := by
  induction weights generalizing acc with
  | nil => rfl
  | cons w weights ih =>
      rw [exactSum, List.map_cons, List.sum_cons] at fits
      have added : (acc + w).toNat = acc.toNat + w.toNat := by
        rw [UInt16.toNat_add]
        exact Nat.mod_eq_of_lt (by omega)
      have rest : (acc + w).toNat + exactSum weights < 2 ^ 16 := by
        rw [added, exactSum]
        omega
      rw [runningSums, List.map_cons, ih rest, List.map_cons, runningSums, added]

/-- What is assumed of `WeightedIndex`: it adds the weights up from left to right
in their own type, where an overflow panics if that is checked, draws below the
total, and returns the number of cumulative weights that are not above the draw. -/
structure Rand.Accumulates (rand : Rand UInt16 D) (overflowChecks : Bool) : Prop where
  overflows : ∀ weights, overflowChecks = true → 2 ^ 16 ≤ exactSum weights →
    (rand.newWeightedIndex weights).2 = none
  allWeightsZero : ∀ weights, weights ≠ [] → overflowChecks = false ∨ exactSum weights < 2 ^ 16 →
    weights.sum = 0 → (rand.newWeightedIndex weights).2 = some (.error .allWeightsZero)
  built : ∀ weights, weights ≠ [] → overflowChecks = false ∨ exactSum weights < 2 ^ 16 →
    weights.sum ≠ 0 → ∃ n dist, rand.newWeightedIndex weights = (n, some (.ok dist)) ∧
      weights.length ≤ n ∧ rand.draws dist = weights.sum.toNat ∧
      (exactSum weights < 2 ^ 16 → ∀ draw < rand.draws dist,
        rand.sample dist draw = (runningSums 0 weights).countP (·.toNat ≤ draw))

/-- A balancer draws below the exact sum of the weights, every draw selects one of
the upstreams, and as many select an upstream as its weight says. -/
structure Honours [IntoWeightedEndpoint U T] (rand : Rand UInt16 D) (upstreams : List U)
    (selector : WeightedRandomSelector T D) : Prop where
  draws : rand.draws selector.dist = exactSum (weights upstreams)
  selects : ∀ draw < rand.draws selector.dist, ∃ out,
    (LoadBalancer.weightedRandom selector).select rand draw =
      some (out, .weightedRandom selector) ∧
    (endpoints upstreams)[out.position]? = some out.value
  weighted : ∀ i up, upstreams[i]? = some up →
    (rand.draws selector.dist).count (fun draw =>
      ((LoadBalancer.weightedRandom selector).select rand draw).map (·.1.position) = some i) =
    (intoWeightedEndpoint up).2.toNat

section
variable [IntoWeightedEndpoint U T] {rand : Rand UInt16 D} {overflowChecks : Bool}
  {upstreams : List U}

/-- A sum that fits: what is built draws below it. -/
theorem built_of_fits (law : rand.Accumulates overflowChecks) {ws : List UInt16}
    (positive : 0 < exactSum ws) (fits : exactSum ws < 2 ^ 16) :
    ∃ n dist, rand.newWeightedIndex ws = (n, some (.ok dist)) ∧ ws.length ≤ n ∧
      rand.draws dist = exactSum ws ∧ ∀ draw < exactSum ws, rand.sample dist draw =
        (runningSums 0 (ws.map UInt16.toNat)).countP (· ≤ draw) := by
  have total : ws.sum.toNat = exactSum ws := by
    rw [toNat_sum, Nat.mod_eq_of_lt fits]
  have nonzero : ws.sum ≠ 0 := by
    intro h
    rw [h] at total
    exact absurd total (Nat.ne_of_lt positive)
  obtain ⟨n, dist, built, whole, draws, sample⟩ :=
    law.built ws (ne_nil_of_exactSum positive) (.inr fits) nonzero
  rw [total] at draws
  refine ⟨n, dist, built, whole, draws, fun draw below => ?_⟩
  have sums : (runningSums 0 ws).map UInt16.toNat = runningSums 0 (ws.map UInt16.toNat) :=
    map_toNat_runningSums (by rw [UInt16.toNat_zero, Nat.zero_add]; exact fits)
  rw [sample fits draw (draws ▸ below), ← sums, List.countP_map]
  rfl

theorem honours_of_built {n : Nat} {dist : D} (whole : upstreams.length ≤ n)
    (draws : rand.draws dist = exactSum (weights upstreams))
    (sample : ∀ draw < exactSum (weights upstreams), rand.sample dist draw =
      (runningSums 0 ((weights upstreams).map UInt16.toNat)).countP (· ≤ draw)) :
    Honours rand upstreams { collection := (endpoints upstreams).take n, dist } := by
  have all : (endpoints upstreams).take n = endpoints upstreams := by
    apply List.take_of_length_le
    rw [endpoints, List.length_map]
    exact whole
  -- what a draw below the total selects
  have selected : ∀ draw < exactSum (weights upstreams), ∃ up,
      upstreams[rand.sample dist draw]? = some up ∧
      LoadBalancer.select rand (.weightedRandom { collection := endpoints upstreams, dist }) draw =
        some (⟨rand.sample dist draw, (intoWeightedEndpoint up).1⟩,
          .weightedRandom { collection := endpoints upstreams, dist }) := by
    intro draw below
    have inside : rand.sample dist draw < upstreams.length := by
      have lt := countP_runningSums_lt below
      rw [← sample draw below, List.length_map, weights, List.length_map] at lt
      exact lt
    refine ⟨upstreams[rand.sample dist draw], List.getElem?_eq_getElem inside, ?_⟩
    simp [LoadBalancer.select, WeightedRandomSelector.select, index, endpoints, inside]
  rw [all]
  constructor
  case draws => exact draws
  case selects =>
    intro draw below
    rw [draws] at below
    obtain ⟨up, at_, hselect⟩ := selected draw below
    refine ⟨_, hselect, ?_⟩
    rw [endpoints, List.getElem?_map, at_, Option.map_some]
  case weighted =>
    intro i up at_
    have hi : i < ((weights upstreams).map UInt16.toNat).length := by
      rw [List.length_map, weights, List.length_map]
      exact (List.getElem?_eq_some_iff.mp at_).1
    have weight : ((weights upstreams).map UInt16.toNat)[i] =
        (intoWeightedEndpoint up).2.toNat := by
      apply Option.some.inj
      rw [← List.getElem?_eq_getElem hi, List.getElem?_map, weights, List.getElem?_map, at_]
      rfl
    have same : ∀ draw < exactSum (weights upstreams),
        ((LoadBalancer.select rand (.weightedRandom { collection := endpoints upstreams, dist })
          draw).map (·.1.position) = some i ↔
        (runningSums 0 ((weights upstreams).map UInt16.toNat)).countP (· ≤ draw) = i) := by
      intro draw below
      obtain ⟨up, -, hselect⟩ := selected draw below
      rw [hselect, Option.map_some, Option.some.injEq, sample draw below]
    rw [draws, ← weight, ← count_runningSums _ hi]
    apply Nat.le_antisymm
    · exact Nat.count_mono_left fun draw below => (same draw below).mp
    · exact Nat.count_mono_left fun draw below => (same draw below).mpr

/-- No selector draws below a sum that overflows. -/
theorem fits_of_honours (law : rand.Accumulates overflowChecks)
    {selector : WeightedRandomSelector T D} (positive : 0 < exactSum (weights upstreams))
    (built : LoadBalancer.tryFromUpstreams rand .weightedRandom upstreams =
      some (.ok (.weightedRandom selector))) (honours : Honours rand upstreams selector) :
    exactSum (weights upstreams) < 2 ^ 16 := by
  by_contra overflow
  have nonempty := ne_nil_of_exactSum positive
  rw [LoadBalancer.tryFromUpstreams_weighted] at built
  cases overflowChecks with
  | true =>
      rw [law.overflows _ rfl (Nat.le_of_not_lt overflow)] at built
      cases built
  | false =>
      by_cases zero : (weights upstreams).sum = 0
      · rw [law.allWeightsZero _ nonempty (.inl rfl) zero] at built
        cases built
      · obtain ⟨n, dist, hnew, -, draws, -⟩ := law.built _ nonempty (.inl rfl) zero
        rw [hnew] at built
        cases built
        have total := honours.draws
        rw [draws, toNat_sum] at total
        exact overflow (total ▸ Nat.mod_lt _ (by decide))

/-- The weights are honoured if and only if their sum is below 2^16. -/
theorem weights_honoured_iff (law : rand.Accumulates overflowChecks)
    (positive : ∃ w ∈ weights upstreams, w ≠ 0) :
    (∃ selector, LoadBalancer.tryFromUpstreams rand .weightedRandom upstreams =
        some (.ok (.weightedRandom selector)) ∧ Honours rand upstreams selector) ↔
      exactSum (weights upstreams) < 2 ^ 16 := by
  have some_weight : 0 < exactSum (weights upstreams) := by
    obtain ⟨w, hw, nonzero⟩ := positive
    apply List.sum_pos_iff_exists_pos_nat.mpr
    refine ⟨w.toNat, List.mem_map_of_mem hw, Nat.pos_of_ne_zero ?_⟩
    exact fun h => nonzero (UInt16.toNat_inj.mp h)
  constructor
  · rintro ⟨selector, built, honours⟩
    exact fits_of_honours law some_weight built honours
  · intro fits
    obtain ⟨n, dist, hnew, whole, draws, sample⟩ := built_of_fits law some_weight fits
    rw [weights, List.length_map] at whole
    refine ⟨_, ?_, honours_of_built whole draws sample⟩
    rw [LoadBalancer.tryFromUpstreams_weighted, hnew]
    rfl

end

/-- A distribution is its weights, and a random number is taken below the total. -/
def weightedIndex (overflowChecks : Bool) : Rand UInt16 (List UInt16) where
  newWeightedIndex weights :=
    (weights.length + 1,
      if weights = [] then some (.error .noItem)
      else if overflowChecks = true ∧ 2 ^ 16 ≤ exactSum weights then none
      else if weights.sum = 0 then some (.error .allWeightsZero)
      else some (.ok weights))
  draws weights := weights.sum.toNat
  sample weights draw :=
    (runningSums 0 weights).countP (·.toNat ≤ draw % weights.sum.toNat)
  choose length draw := if length = 0 then none else some (draw % length)

theorem not_panicking {overflowChecks : Bool} {weights : List UInt16}
    (h : overflowChecks = false ∨ exactSum weights < 2 ^ 16) :
    ¬ (overflowChecks = true ∧ 2 ^ 16 ≤ exactSum weights) := by
  rintro ⟨rfl, overflow⟩
  exact absurd (h.resolve_left (by decide)) (Nat.not_lt_of_le overflow)

theorem weightedIndex_accumulates (overflowChecks : Bool) :
    (weightedIndex overflowChecks).Accumulates overflowChecks where
  overflows := by
    intro weights checked overflow
    have nonempty := ne_nil_of_exactSum (Nat.lt_of_lt_of_le (by decide) overflow)
    simp only [weightedIndex, if_neg nonempty, if_pos (And.intro checked overflow)]
  allWeightsZero := by
    intro weights nonempty fits zero
    have unchecked := not_panicking fits
    simp only [weightedIndex, if_neg nonempty, if_neg unchecked, if_pos zero]
  built := by
    intro weights nonempty fits nonzero
    have unchecked := not_panicking fits
    refine ⟨weights.length + 1, weights, ?_, Nat.le_succ _, rfl, fun _ draw below => ?_⟩
    · simp only [weightedIndex, if_neg nonempty, if_neg unchecked, if_neg nonzero]
    · simp only [weightedIndex] at below ⊢
      rw [Nat.mod_eq_of_lt below]

/-- A pair is an endpoint with its weight. -/
instance : IntoWeightedEndpoint (T × UInt16) T where
  intoWeightedEndpoint := id

/-- Weights 2, 0 and 1. -/
theorem small_weights_honoured :
    let upstreams : List (String × UInt16) := [("a", 2), ("b", 0), ("c", 1)]
    ∃ selector, LoadBalancer.tryFromUpstreams (weightedIndex true) .weightedRandom upstreams =
      some (.ok (.weightedRandom selector)) ∧ Honours (weightedIndex true) upstreams selector := by
  intro upstreams
  exact (weights_honoured_iff (weightedIndex_accumulates true) ⟨2, by decide, by decide⟩).mpr
    (by decide)

/-- Weights 65535 and 1: without overflow checks their sum is 0, and with them it
panics. -/
theorem large_weights_not_honoured :
    let upstreams : List (String × UInt16) := [("a", 65535), ("b", 1)]
    (weightedIndex false).Accumulates false ∧ (weightedIndex true).Accumulates true ∧
    (∃ w ∈ weights upstreams, w ≠ 0) ∧
    (¬ ∃ selector, LoadBalancer.tryFromUpstreams (weightedIndex false) .weightedRandom upstreams =
      some (.ok (.weightedRandom selector)) ∧ Honours (weightedIndex false) upstreams selector) ∧
    ¬ ∃ selector, LoadBalancer.tryFromUpstreams (weightedIndex true) .weightedRandom upstreams =
      some (.ok (.weightedRandom selector)) ∧ Honours (weightedIndex true) upstreams selector := by
  intro upstreams
  have positive : 0 < exactSum (weights upstreams) := by decide
  have overflow : ¬ exactSum (weights upstreams) < 2 ^ 16 := by decide
  refine ⟨weightedIndex_accumulates _, weightedIndex_accumulates _, ⟨1, by decide, by decide⟩,
    ?_, ?_⟩
  all_goals
    rintro ⟨selector, built, honours⟩
    exact overflow (fits_of_honours (weightedIndex_accumulates _) positive built honours)

end Monolake.Common
