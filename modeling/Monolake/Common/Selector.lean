import Mathlib.Data.List.Basic

/-!
Selectors and the load balancer that is built from a list of upstreams. The
`rand` crate is a parameter; a draw is the random number that a call of `select`
gets. An element is selected by reference: as its position and its value.
-/
namespace Monolake.Common

universe u v w
variable {T : Type u} {X : Type v} {D : Type w}

/-- `rand::distributions::WeightedError` -/
inductive WeightedError where
  | noItem
  | invalidWeight
  | allWeightsZero
  | tooMany

/-- What is used of the `rand` crate. `D` are the distributions `WeightedIndex`. -/
structure Rand (X : Type v) (D : Type w) where
  /-- On an iterator with these items: how often `next` is called, and what is
  returned, where `none` is a panic. -/
  newWeightedIndex : List X → Nat × Option (Except WeightedError D)
  /-- The number of draws of the distribution, all equally likely. -/
  draws : D → Nat
  sample : D → Nat → Nat
  /-- The position in a slice of this length that `SliceRandom::choose` takes. -/
  choose : Nat → Nat → Option Nat

/-- `&collection[position]` -/
structure Ref (T : Type u) where
  position : Nat
  value : T

/-- `none` when the index is out of bounds. -/
def index (collection : List T) (position : Nat) : Option (Ref T) :=
  collection[position]?.map fun value => { position, value }

structure EmptyCollectionError where

structure RandomSelector (T : Type u) where
  collection : List T

namespace RandomSelector

def new (collection : List T) : Except EmptyCollectionError (RandomSelector T) :=
  if collection.isEmpty then .error {} else .ok { collection }

/-- `none` when `choose` returns nothing to unwrap. -/
def select (rand : Rand X D) (self : RandomSelector T) (draw : Nat) : Option (Ref T) :=
  if self.collection.length = 1 then index self.collection 0
  else (rand.choose self.collection.length draw).bind (index self.collection)

end RandomSelector

/-- The weights of pairs, while the other components are pushed on a vector. -/
structure MapLast (T : Type u) (X : Type v) where
  input : List (T × X)
  pushed : List T

def MapLast.next (it : MapLast T X) : Option X × MapLast T X :=
  match it.input with
  | [] => (none, it)
  | (x, y) :: input => (some y, { input, pushed := it.pushed ++ [x] })

/-- An iterator whose items are counted when they are taken. -/
structure Count (X : Type v) where
  input : List X
  cnt : Nat

def Count.next (it : Count X) : Option X × Count X :=
  match it.input with
  | [] => (none, it)
  | r :: input => (some r, { input, cnt := it.cnt + 1 })

/-- An iterator after `n` calls of `next`. -/
def afterCalls {I : Type u} (next : I → Option X × I) : Nat → I → I
  | 0, it => it
  | n + 1, it => afterCalls next n (next it).2

theorem afterCalls_mapLast (n : Nat) (it : MapLast T X) :
    (afterCalls MapLast.next n it).pushed = it.pushed ++ (it.input.take n).map Prod.fst := by
  induction n generalizing it with
  | zero => rw [afterCalls, List.take_zero, List.map_nil, List.append_nil]
  | succ n ih =>
      obtain ⟨input, pushed⟩ := it
      rw [afterCalls, ih]
      cases input with
      | nil => simp [MapLast.next]
      | cons pair input => simp [MapLast.next]

theorem afterCalls_count (n : Nat) (it : Count X) :
    (afterCalls Count.next n it).cnt = it.cnt + min n it.input.length := by
  induction n generalizing it with
  | zero => rw [afterCalls, Nat.zero_min, Nat.add_zero]
  | succ n ih =>
      obtain ⟨input, cnt⟩ := it
      rw [afterCalls, ih]
      cases input with
      | nil => simp [Count.next]
      | cons r input =>
          simp only [Count.next, List.length_cons]
          omega

/-- `while collection.len() > cnt { collection.pop(); }` -/
def popTo (cnt : Nat) (collection : List T) : List T :=
  if collection.length > cnt then popTo cnt collection.dropLast else collection
termination_by collection.length
decreasing_by
  rw [List.length_dropLast]
  omega

theorem popTo_eq_take (cnt : Nat) (collection : List T) :
    popTo cnt collection = collection.take cnt := by
  induction collection using popTo.induct cnt with
  | case1 collection long ih =>
      rw [popTo, if_pos long, ih, List.dropLast_eq_take, List.take_take]
      exact congrArg (collection.take ·) (by omega)
  | case2 collection short =>
      rw [popTo, if_neg short, List.take_of_length_le (Nat.le_of_not_lt short)]

structure WeightedRandomSelector (T : Type u) (D : Type w) where
  collection : List T
  dist : D

namespace WeightedRandomSelector

/-- `none` when `WeightedIndex::new` panics. -/
def new (rand : Rand X D) (collection : List T) (weights : List X) :
    Option (Except WeightedError (WeightedRandomSelector T D)) :=
  let weights : Count X := { input := weights.take collection.length, cnt := 0 }
  let (n, dist) := rand.newWeightedIndex weights.input
  let cnt := (afterCalls Count.next n weights).cnt
  dist.map fun dist => dist.map fun dist => { collection := popTo cnt collection, dist }

theorem new_eq (rand : Rand X D) (collection : List T) (weights : List X) :
    new rand collection weights =
      let built := rand.newWeightedIndex (weights.take collection.length)
      built.2.map fun dist => dist.map fun dist =>
        { collection := collection.take (min built.1 (weights.take collection.length).length)
          dist } := by
  simp only [new, afterCalls_count, popTo_eq_take, Nat.zero_add]

theorem new_ok {rand : Rand X D} {collection : List T} {weights : List X}
    {selector : WeightedRandomSelector T D}
    (h : new rand collection weights = some (.ok selector)) :
    ∃ n dist, rand.newWeightedIndex (weights.take collection.length) = (n, some (.ok dist)) ∧
      selector = { collection := collection.take (min n (weights.take collection.length).length)
                   dist } := by
  rw [new_eq] at h
  cases hnew : rand.newWeightedIndex (weights.take collection.length) with
  | mk n built =>
      rw [hnew] at h
      cases built with
      | none => cases h
      | some built =>
          cases built with
          | error e => cases h
          | ok dist =>
              cases h
              exact ⟨n, dist, rfl, rfl⟩

def newFromIter (rand : Rand X D) (input : List (T × X)) :
    Option (Except WeightedError (WeightedRandomSelector T D)) :=
  let it : MapLast T X := { input, pushed := [] }
  let (n, dist) := rand.newWeightedIndex (input.map Prod.snd)
  let collection := (afterCalls MapLast.next n it).pushed
  dist.map fun dist => dist.map fun dist => { collection, dist }

def select (rand : Rand X D) (self : WeightedRandomSelector T D) (draw : Nat) : Option (Ref T) :=
  let idx := rand.sample self.dist draw
  index self.collection idx

end WeightedRandomSelector

structure RoundRobinSelector (T : Type u) where
  collection : List T
  nextIdx : Nat

namespace RoundRobinSelector

def new (collection : List T) : Except EmptyCollectionError (RoundRobinSelector T) :=
  if collection.isEmpty then .error {} else .ok { collection, nextIdx := 0 }

/-- With the cell set to the index that is next; `none` also for a remainder by
zero. -/
def select (self : RoundRobinSelector T) : Option (Ref T × RoundRobinSelector T) :=
  let idx := self.nextIdx
  if self.collection.length = 0 then none
  else
    let self := { self with nextIdx := (idx + 1) % self.collection.length }
    (index self.collection idx).map fun out => (out, self)

theorem select_within {self : RoundRobinSelector T} (h : self.nextIdx < self.collection.length) :
    self.select = some (⟨self.nextIdx, self.collection[self.nextIdx]⟩,
      { self with nextIdx := (self.nextIdx + 1) % self.collection.length }) := by
  have nonempty : self.collection.length ≠ 0 := Nat.ne_zero_of_lt h
  simp only [select, if_neg nonempty, index, List.getElem?_eq_getElem h, Option.map_some]

end RoundRobinSelector

structure IdentitySelector (T : Type u) where
  value : T

def IdentitySelector.select (self : IdentitySelector T) : Ref T :=
  { position := 0, value := self.value }

inductive LoadBalanceStrategy where
  | random
  | weightedRandom
  | roundRobin
  | first
  deriving DecidableEq

inductive LoadBalanceError where
  | emptyUpstream
  | invalidWeight (e : WeightedError)

def LoadBalanceError.ofEmptyCollection : EmptyCollectionError → LoadBalanceError :=
  fun _ => .emptyUpstream

inductive LoadBalancer (T : Type u) (D : Type w) where
  | random (selector : RandomSelector T)
  | weightedRandom (selector : WeightedRandomSelector T D)
  | roundRobin (selector : RoundRobinSelector T)
  | identity (selector : IdentitySelector T)

class IntoWeightedEndpoint (U : Type v) (T : outParam (Type u)) where
  intoWeightedEndpoint : U → T × UInt16

export IntoWeightedEndpoint (intoWeightedEndpoint)

def endpoints {U : Type v} [IntoWeightedEndpoint U T] (upstreams : List U) : List T :=
  upstreams.map fun up => (intoWeightedEndpoint up).1

def weights {U : Type v} [IntoWeightedEndpoint U T] (upstreams : List U) : List UInt16 :=
  upstreams.map fun up => (intoWeightedEndpoint up).2

namespace LoadBalancer

def tryFromUpstreams {U : Type v} [IntoWeightedEndpoint U T] (rand : Rand UInt16 D)
    (lb : LoadBalanceStrategy) (upstreams : List U) :
    Option (Except LoadBalanceError (LoadBalancer T D)) :=
  match lb with
  | .random => some <|
      ((RandomSelector.new (endpoints upstreams)).map .random).mapError .ofEmptyCollection
  | .weightedRandom =>
      (WeightedRandomSelector.newFromIter rand (upstreams.map intoWeightedEndpoint)).map
        fun selector => (selector.map .weightedRandom).mapError .invalidWeight
  | .roundRobin => some <|
      ((RoundRobinSelector.new (endpoints upstreams)).map .roundRobin).mapError .ofEmptyCollection
  | .first => some <|
      match upstreams with
      | [] => .error .emptyUpstream
      | up :: _ => .ok (.identity { value := (intoWeightedEndpoint up).1 })

/-- The reference, and the balancer with its cell as `select` leaves it; `none`
when it panics. -/
def select (rand : Rand UInt16 D) (self : LoadBalancer T D) (draw : Nat) :
    Option (Ref T × LoadBalancer T D) :=
  match self with
  | .random selector => (selector.select rand draw).map fun out => (out, self)
  | .weightedRandom selector => (selector.select rand draw).map fun out => (out, self)
  | .roundRobin selector => selector.select.map fun (out, selector) => (out, .roundRobin selector)
  | .identity selector => some (selector.select, self)

/-- Calls of `select`, one for each draw. -/
def selects (rand : Rand UInt16 D) (self : LoadBalancer T D) :
    List Nat → Option (List (Ref T) × LoadBalancer T D)
  | [] => some ([], self)
  | draw :: draws =>
      match self.select rand draw with
      | none => none
      | some (out, self) =>
          (selects rand self draws).map fun (outs, self) => (out :: outs, self)

section
variable {U : Type v} [IntoWeightedEndpoint U T]

theorem tryFromUpstreams_random (rand : Rand UInt16 D) (upstreams : List U) :
    tryFromUpstreams rand .random upstreams = some
      (if upstreams = [] then .error .emptyUpstream
      else .ok (.random { collection := endpoints upstreams })) := by
  cases upstreams <;> rfl

theorem tryFromUpstreams_roundRobin (rand : Rand UInt16 D) (upstreams : List U) :
    tryFromUpstreams rand .roundRobin upstreams = some
      (if upstreams = [] then .error .emptyUpstream
      else .ok (.roundRobin { collection := endpoints upstreams, nextIdx := 0 })) := by
  cases upstreams <;> rfl

theorem tryFromUpstreams_weighted (rand : Rand UInt16 D) (upstreams : List U) :
    tryFromUpstreams rand .weightedRandom upstreams =
      (rand.newWeightedIndex (weights upstreams)).2.map fun built =>
        (built.map fun dist => .weightedRandom
          { collection := (endpoints upstreams).take (rand.newWeightedIndex (weights upstreams)).1
            dist }).mapError .invalidWeight := by
  have paired : (upstreams.map intoWeightedEndpoint).map Prod.snd = weights upstreams := by
    rw [weights, List.map_map]
    rfl
  have first : (upstreams.map intoWeightedEndpoint).map Prod.fst = endpoints upstreams := by
    rw [endpoints, List.map_map]
    rfl
  simp only [LoadBalancer.tryFromUpstreams, WeightedRandomSelector.newFromIter, paired,
    afterCalls_mapLast, List.nil_append, List.map_take, first, Option.map_map]
  congr 1
  funext built
  cases built <;> rfl

theorem tryFromUpstreams_weighted_ok {rand : Rand UInt16 D} {upstreams : List U}
    {balancer : LoadBalancer T D}
    (h : tryFromUpstreams rand .weightedRandom upstreams = some (.ok balancer)) :
    ∃ n dist, rand.newWeightedIndex (weights upstreams) = (n, some (.ok dist)) ∧
      balancer = .weightedRandom { collection := (endpoints upstreams).take n, dist } := by
  rw [tryFromUpstreams_weighted] at h
  cases hnew : rand.newWeightedIndex (weights upstreams) with
  | mk n built =>
      rw [hnew] at h
      cases built with
      | none => cases h
      | some built =>
          cases built with
          | error e => cases h
          | ok dist =>
              cases h
              exact ⟨n, dist, rfl, rfl⟩

end

end LoadBalancer

end Monolake.Common
