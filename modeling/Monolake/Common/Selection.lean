import Monolake.Common.WeightedSelection

/-!
Every selection is of a configured endpoint: the collection of a selector and the
distribution that is drawn from stay aligned, and the round robin in its bounds.
-/
namespace Monolake.Common

universe u v w
open Foundation
variable {T : Type u} {U : Type v} {X : Type v} {D : Type w}

/-- What is assumed of `rand`: a distribution that is built has consumed its
whole iterator, it samples below the number of its weights, and a slice that is not
empty has an element to choose. -/
structure Rand.Reliable (rand : Rand X D) : Prop where
  built : ∀ weights n dist, rand.newWeightedIndex weights = (n, some (.ok dist)) →
    weights.length ≤ n ∧ ∀ draw, rand.sample dist draw < weights.length
  chooses : ∀ length draw, 0 < length → ∃ i < length, rand.choose length draw = some i

/-- An element of the list at the position where it says. -/
def Ref.On (out : Ref T) (collection : List T) : Prop :=
  collection[out.position]? = some out.value

theorem index_of_lt {collection : List T} {i : Nat} (h : i < collection.length) :
    ∃ out, index collection i = some out ∧ out.position = i ∧ out.On collection := by
  refine ⟨⟨i, collection[i]⟩, ?_, rfl, List.getElem?_eq_getElem h⟩
  rw [index, List.getElem?_eq_getElem h, Option.map_some]

/-- A balancer has the configured endpoints, and what it goes by is within them. -/
def LoadBalancer.Sound (rand : Rand UInt16 D) (configured : List T) : LoadBalancer T D → Prop
  | .random selector => selector.collection = configured ∧ 0 < configured.length
  | .weightedRandom selector => selector.collection = configured ∧
      ∀ draw, rand.sample selector.dist draw < configured.length
  | .roundRobin selector => selector.collection = configured ∧
      selector.nextIdx < configured.length
  | .identity selector => configured[0]? = some selector.value

section
variable {rand : Rand UInt16 D} {configured : List T}

theorem LoadBalancer.Sound.select (reliable : rand.Reliable) {self : LoadBalancer T D}
    (h : self.Sound rand configured) (draw : Nat) :
    ∃ out next, self.select rand draw = some (out, next) ∧ next.Sound rand configured ∧
      out.On configured := by
  cases self with
  | random selector =>
      obtain ⟨rfl, some_endpoint⟩ := h
      rw [LoadBalancer.select, RandomSelector.select]
      split
      · obtain ⟨out, hout, -, on⟩ := index_of_lt some_endpoint
        exact ⟨out, .random selector, by rw [hout, Option.map_some], ⟨rfl, some_endpoint⟩, on⟩
      · obtain ⟨i, hi, chosen⟩ := reliable.chooses _ draw some_endpoint
        obtain ⟨out, hout, -, on⟩ := index_of_lt hi
        exact ⟨out, .random selector, by rw [chosen, Option.bind_some, hout, Option.map_some],
          ⟨rfl, some_endpoint⟩, on⟩
  | weightedRandom selector =>
      obtain ⟨rfl, sampled⟩ := h
      obtain ⟨out, hout, -, on⟩ := index_of_lt (sampled draw)
      exact ⟨out, .weightedRandom selector,
        by rw [LoadBalancer.select, WeightedRandomSelector.select, hout, Option.map_some],
        ⟨rfl, sampled⟩, on⟩
  | roundRobin selector =>
      obtain ⟨rfl, within⟩ := h
      have some_endpoint : 0 < selector.collection.length := Nat.zero_lt_of_lt within
      refine ⟨⟨selector.nextIdx, selector.collection[selector.nextIdx]⟩, .roundRobin
        { selector with nextIdx := (selector.nextIdx + 1) % selector.collection.length }, ?_,
        ⟨rfl, Nat.mod_lt _ some_endpoint⟩, List.getElem?_eq_getElem within⟩
      rw [LoadBalancer.select, RoundRobinSelector.select_within within, Option.map_some]
  | identity selector => exact ⟨selector.select, .identity selector, rfl, h, h⟩

theorem LoadBalancer.Sound.selects (reliable : rand.Reliable) {self : LoadBalancer T D}
    (h : self.Sound rand configured) (draws : List Nat) :
    ∃ outs next, self.selects rand draws = some (outs, next) ∧ next.Sound rand configured ∧
      outs.length = draws.length ∧ ∀ out ∈ outs, out.On configured := by
  induction draws generalizing self with
  | nil => exact ⟨[], self, rfl, h, rfl, fun out hout => absurd hout (List.not_mem_nil)⟩
  | cons draw draws ih =>
      obtain ⟨out, next, hselect, sound, on⟩ := h.select reliable draw
      obtain ⟨outs, last, hselects, sound', length, all⟩ := ih sound
      refine ⟨out :: outs, last, ?_, sound', congrArg (· + 1) length, ?_⟩
      · rw [LoadBalancer.selects, hselect]
        simp only [hselects, Option.map_some]
      · exact List.forall_mem_cons.mpr ⟨on, all⟩

theorem endpoints_pos [IntoWeightedEndpoint U T] {upstreams : List U} (h : upstreams ≠ []) :
    0 < (endpoints upstreams).length := by
  rw [endpoints, List.length_map]
  exact List.length_pos_of_ne_nil h

/-- A balancer that is built is sound. -/
theorem LoadBalancer.Sound.built [IntoWeightedEndpoint U T] (reliable : rand.Reliable)
    {lb : LoadBalanceStrategy} {upstreams : List U} {balancer : LoadBalancer T D}
    (h : LoadBalancer.tryFromUpstreams rand lb upstreams = some (.ok balancer)) :
    balancer.Sound rand (endpoints upstreams) := by
  cases lb with
  | random =>
      rw [tryFromUpstreams_random] at h
      split at h
      · cases h
      · rename_i nonempty
        cases h
        exact ⟨rfl, endpoints_pos nonempty⟩
  | weightedRandom =>
      obtain ⟨n, dist, hnew, rfl⟩ := tryFromUpstreams_weighted_ok h
      obtain ⟨whole, sampled⟩ := reliable.built _ _ _ hnew
      have length : (endpoints upstreams).length = (weights upstreams).length := by
        rw [endpoints, weights, List.length_map, List.length_map]
      refine ⟨List.take_of_length_le ?_, fun draw => ?_⟩
      · rw [length]
        exact whole
      · rw [length]
        exact sampled draw
  | roundRobin =>
      rw [tryFromUpstreams_roundRobin] at h
      split at h
      · cases h
      · rename_i nonempty
        cases h
        exact ⟨rfl, endpoints_pos nonempty⟩
  | first =>
      cases upstreams with
      | nil => cases h
      | cons up upstreams =>
          cases h
          rfl

end

section
variable {rand : Rand X D} {collection : List T} {weights : List X}
  {selector : WeightedRandomSelector T D}

/-- Of two lengths the smaller one counts. -/
theorem WeightedRandomSelector.new_sound (reliable : rand.Reliable)
    (h : WeightedRandomSelector.new rand collection weights = some (.ok selector)) :
    selector.collection = collection.take weights.length ∧
      ∀ draw, rand.sample selector.dist draw < min collection.length weights.length := by
  obtain ⟨n, dist, hnew, rfl⟩ := new_ok h
  obtain ⟨whole, sampled⟩ := reliable.built _ _ _ hnew
  rw [List.length_take] at whole sampled
  refine ⟨?_, sampled⟩
  apply List.take_eq_take_iff.mpr
  rw [List.length_take]
  omega

theorem WeightedRandomSelector.new_select (reliable : rand.Reliable)
    (h : WeightedRandomSelector.new rand collection weights = some (.ok selector)) (draw : Nat) :
    ∃ out, selector.select rand draw = some out ∧
      out.position = rand.sample selector.dist draw ∧
      out.position < min collection.length weights.length ∧ out.On collection := by
  obtain ⟨taken, sampled⟩ := new_sound reliable h
  have inside : rand.sample selector.dist draw < selector.collection.length := by
    rw [taken, List.length_take, Nat.min_comm]
    exact sampled draw
  obtain ⟨out, hout, at_, on⟩ := index_of_lt inside
  refine ⟨out, hout, at_, at_ ▸ sampled draw, ?_⟩
  rw [Ref.On, taken, List.getElem?_take] at on
  split at on
  · exact on
  · cases on

end

/-- Whatever is drawn, a balancer that is built selects endpoints of its list, and
a selector that is built from two lists the elements that have a weight. -/
theorem selects_configured [IntoWeightedEndpoint U T] {D' : Type w} {rand : Rand UInt16 D}
    {randX : Rand X D'} (reliable : rand.Reliable) (reliableX : randX.Reliable) :
    (∀ (lb : LoadBalanceStrategy) (upstreams : List U) (balancer : LoadBalancer T D),
      LoadBalancer.tryFromUpstreams rand lb upstreams = some (.ok balancer) →
      ∀ draws : List Nat, ∃ outs next, balancer.selects rand draws = some (outs, next) ∧
        outs.length = draws.length ∧ ∀ out ∈ outs, out.On (endpoints upstreams)) ∧
    ∀ (collection : List T) (weights : List X) (selector : WeightedRandomSelector T D'),
      WeightedRandomSelector.new randX collection weights = some (.ok selector) →
      ∀ draws : List Nat, ∃ outs, draws.mapM (selector.select randX) = some outs ∧
        List.Forall₂ (fun draw out => out.position = randX.sample selector.dist draw ∧
          out.position < min collection.length weights.length ∧ out.On collection) draws outs := by
  constructor
  · intro lb upstreams balancer built draws
    obtain ⟨outs, next, hselects, -, length, on⟩ :=
      (LoadBalancer.Sound.built reliable built).selects reliable draws
    exact ⟨outs, next, hselects, length, on⟩
  · intro collection weights selector built draws
    induction draws with
    | nil => exact ⟨[], rfl, .nil⟩
    | cons draw draws ih =>
        obtain ⟨out, hselect, on⟩ := WeightedRandomSelector.new_select reliableX built draw
        obtain ⟨outs, hselects, all⟩ := ih
        refine ⟨out :: outs, ?_, .cons on all⟩
        rw [List.mapM_cons, hselect, hselects]
        rfl

theorem weightedIndex_reliable (overflowChecks : Bool) :
    (weightedIndex overflowChecks).Reliable where
  built := by
    intro weights n dist h
    simp only [weightedIndex, Prod.mk.injEq] at h
    obtain ⟨rfl, h⟩ := h
    split at h
    · cases h
    · rename_i nonempty
      split at h
      · cases h
      · split at h
        · cases h
        · rename_i nonzero
          cases h
          refine ⟨Nat.le_succ _, fun draw => ?_⟩
          -- the last running sum is the total, which is above every draw
          have total := total_mem_runningSums 0 nonempty
          have positive : 0 < weights.sum.toNat := by
            apply Nat.pos_of_ne_zero
            exact fun h => nonzero (UInt16.toNat_inj.mp h)
          rw [zero_add] at total
          have above : ¬ weights.sum.toNat ≤ draw % weights.sum.toNat :=
            Nat.not_le_of_lt (Nat.mod_lt _ positive)
          rw [← length_runningSums 0 weights]
          exact List.countP_lt_length_iff.mpr ⟨weights.sum, total, decide_eq_false above⟩
  chooses := by
    intro length draw h
    refine ⟨draw % length, Nat.mod_lt _ h, ?_⟩
    simp only [weightedIndex, if_neg (Nat.ne_of_gt h)]

/-- Three upstreams, one of weight 0; and three elements for two weights. -/
theorem three_upstreams_selected :
    let upstreams : List (String × UInt16) := [("a", 2), ("b", 0), ("c", 1)]
    let balancer : LoadBalancer String (List UInt16) := .weightedRandom ⟨["a", "b", "c"], [2, 0, 1]⟩
    let selector : WeightedRandomSelector String (List UInt16) := ⟨["a", "b"], [2, 1]⟩
    (∃ outs next, balancer.selects (weightedIndex true) [7, 2, 0] = some (outs, next) ∧
      outs.length = 3 ∧ ∀ out ∈ outs, out.On (endpoints upstreams)) ∧
    ∃ outs, [1, 2].mapM (selector.select (weightedIndex true)) = some outs ∧
      List.Forall₂ (fun draw out =>
        out.position = (weightedIndex true).sample selector.dist draw ∧
        out.position < min 3 2 ∧ out.On ["a", "b", "c"]) [1, 2] outs := by
  intro upstreams balancer selector
  have configured := selects_configured (T := String) (U := String × UInt16)
    (weightedIndex_reliable true) (weightedIndex_reliable true)
  exact ⟨configured.1 .weightedRandom upstreams balancer rfl [7, 2, 0],
    configured.2 ["a", "b", "c"] [2, 1] selector
      (by rw [WeightedRandomSelector.new_eq]; rfl) [1, 2]⟩

end Monolake.Common
