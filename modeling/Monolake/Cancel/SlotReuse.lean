import Monolake.Cancel.ListWalk
import Monolake.Foundation.Peak

/-!
No slot of the list leaks. The vacancies are exactly the positions without a value,
and since the vector only grows when there is none, it is as long as the list has
been at its longest.
-/
namespace Monolake.Cancel

universe u
open Foundation

variable {T : Type u}

/-- The number of positions that hold a value. -/
def LinkedList.live (ll : LinkedList T) : Nat :=
  (List.range ll.data.length).countP fun idx => (ll.get idx).isSome

/-- The chain from `vacancy_head` through the `next` fields: it comes to its end and
meets every position without a value once. -/
structure LinkedList.Vacancies (ll : LinkedList T) (free : List Nat) : Prop where
  chain : Path (nextOf ll.data) ll.vacancyHead free NULL
  not_null : NULL ∉ free
  nodup : free.Nodup
  mem_iff : ∀ idx, idx ∈ free ↔ idx < ll.data.length ∧ ll.get idx = none

namespace Threaded
variable {ll : LinkedList T} {m : OrderedMap Nat T} {free : List Nat}

theorem get_eq (h : Threaded ll.view m free) (idx : Nat) : ll.get idx = m.value idx := by
  rw [LinkedList.get_eq, h.cells]

theorem vacancies (h : Threaded ll.view m free) : ll.Vacancies free where
  chain := h.vacant
  not_null hmem := h.not_null (List.mem_append_right _ hmem)
  nodup := (List.nodup_append.mp h.nodup).2.1
  mem_iff := by
    intro idx
    rw [h.get_eq, OrderedMap.value_eq_none]
    constructor
    · intro hfree
      refine ⟨(h.places idx).mp (List.mem_append_right _ hfree), fun hkey => ?_⟩
      exact (List.nodup_append.mp h.nodup).2.2 idx hkey idx hfree rfl
    · rintro ⟨inside, hkey⟩
      exact (List.mem_append.mp ((h.places idx).mpr inside)).resolve_left hkey

theorem live_eq (h : Threaded ll.view m free) : ll.live = m.keys.length := by
  rw [LinkedList.live, List.countP_eq_length_filter]
  apply List.Perm.length_eq
  rw [List.perm_ext_iff_of_nodup (List.nodup_range.filter _) m.nodup]
  intro idx
  rw [List.mem_filter, List.mem_range, h.get_eq, m.mem_keys, Option.isSome_iff_ne_none]
  refine ⟨And.right, fun hvalue => ⟨?_, hvalue⟩⟩
  exact (h.places idx).mp (List.mem_append_left _ ((m.mem_keys idx).mpr hvalue))

end Threaded

/-- The history of the list: the vector is as long as the list has been at its longest. -/
structure Reused (tr : List (Operation T × Answer T)) (ll : LinkedList T)
    (m : OrderedMap Nat T) (free : List Nat) : Prop where
  threaded : Threaded ll.view m free
  longest : IsGreatest (Passed listStep .new LinkedList.live tr) ll.data.length

theorem listStep_deterministic : Deterministic (listStep (T := T)) := by
  intro ll performed ll' ll'' h h'
  rw [listStep, h] at h'
  cases h'
  rfl

theorem new_reused : Reused [] (LinkedList.new : LinkedList T) .empty [] where
  threaded := new_threaded
  longest := by
    rw [passed_nil listStep_deterministic]
    exact isGreatest_singleton

theorem Reused.step {tr : List (Operation T × Answer T)} {performed : Operation T × Answer T}
    {ll ll' : LinkedList T} {m : OrderedMap Nat T} {free : List Nat}
    (run : Run listStep .new tr ll) (h : Reused tr ll m free) (step : listStep ll performed ll') :
    ∃ m' free', Reused (tr ++ [performed]) ll' m' free' := by
  obtain ⟨op, answer⟩ := performed
  rcases h.threaded.exec op with
    ⟨-, val, -, hfull, -⟩ | ⟨ll'', answer', m', free', hexec, -, threaded, hlength⟩
  · rw [listStep, hfull] at step
    cases step
  · have same := step
    rw [listStep, hexec] at same
    cases same
    refine ⟨m', free', threaded, ?_⟩
    rw [passed_snoc listStep_deterministic run step]
    have greatest := h.longest.insert ll'.live
    have count : m'.keys.length + free'.length = ll'.data.length := threaded.length_eq
    have length : max ll'.live ll.data.length = ll'.data.length := by
      rw [threaded.live_eq]
      rcases hlength with same | ⟨hfree, grown⟩
      · omega
      · rw [hfree, List.length_nil] at count
        omega
    rw [length] at greatest
    exact greatest

/-- After every sequence of operations on an empty list: the chain of vacancies
consists of the positions without a value, each once; the vector is as long as the
list has been at its longest; and the next operation returns, unless it is an
insertion into as many values as a vector can hold. -/
theorem slots_reused {tr : List (Operation T × Answer T)} {ll : LinkedList T}
    (h : Run listStep .new tr ll) :
    (∃ free, ll.Vacancies free) ∧
    IsGreatest (Passed listStep .new LinkedList.live tr) ll.data.length ∧
    ∀ op, (∃ answer ll', listStep ll (op, answer) ll') ∨
      ∃ val, op = .pushBack val ∧ ll.exec op = .error .capacityOverflow ∧ ll.live = maxLen := by
  have reused : ∃ m free, Reused tr ll m free :=
    h.history (I := fun tr ll => ∃ m free, Reused tr ll m free) ⟨_, _, new_reused⟩
      fun _ _ _ _ before ⟨_, _, ih⟩ step => ih.step before step
  obtain ⟨m, free, threaded, longest⟩ := reused
  refine ⟨⟨free, threaded.vacancies⟩, longest, fun op => ?_⟩
  rcases threaded.exec op with ⟨hfree, val, hop, hfull, hlen⟩ | ⟨ll', answer, m', free', hexec, -⟩
  · have count : m.keys.length + free.length = ll.data.length := threaded.length_eq
    rw [hfree, List.length_nil, hlen] at count
    exact .inr ⟨val, hop, hfull, threaded.live_eq.trans count⟩
  · exact .inl ⟨answer, ll', hexec⟩

/-- Two of three values removed and one inserted: the vector keeps its length, which
is that of the longest list, and one position is vacant. -/
theorem vacated_slot_reused :
    ∃ (tr : List (Operation Nat × Answer Nat)) (ll : LinkedList Nat),
      Run listStep .new tr ll ∧ ll.data.length = 3 ∧ ll.live = 2 ∧ (∃ free, ll.Vacancies free) ∧
        IsGreatest (Passed listStep .new LinkedList.live tr) 3 := by
  have run : Run listStep (.new : LinkedList Nat)
      [(.pushBack 1, .index 0), (.pushBack 2, .index 1), (.pushBack 3, .index 2),
        (.remove 1, .value (some 2)), (.remove 0, .value (some 1)), (.pushBack 4, .index 0)] _ :=
    .cons rfl (.cons rfl (.cons rfl (.cons rfl (.cons rfl (.cons rfl .nil)))))
  obtain ⟨vacancies, longest, -⟩ := slots_reused run
  exact ⟨_, _, run, rfl, rfl, vacancies, longest⟩

end Monolake.Cancel
