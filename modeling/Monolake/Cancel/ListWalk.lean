import Monolake.Cancel.ListRefinement

/-!
The walks over a list: both drops, the iterator and a `for` loop over it visit
the live nodes once each, in the order of insertion. With the operations, the
list refines the insertion-ordered map over every run.
-/
namespace Monolake.Cancel

universe u
open Foundation

variable {T : Type u}

/-- What a walk from `head` has in front of it. -/
structure Remaining (head : Nat) (data : List (Node T)) (entries : List (Nat × T)) : Prop where
  path : Path (nextOf data) head (entries.map Prod.fst) NULL
  nodup : (entries.map Prod.fst).Nodup
  not_null : NULL ∉ entries.map Prod.fst
  cells : ∀ e ∈ entries, cellOf data e.1 = some e.2

theorem Remaining.nil {head : Nat} {data : List (Node T)}
    (h : Remaining head data []) : head = NULL := h.path

/-- Taking the value of the first node leaves the rest as it was. -/
theorem Remaining.take {head : Nat} {data : List (Node T)} {e : Nat × T}
    {entries : List (Nat × T)} (h : Remaining head data (e :: entries)) :
    head ≠ NULL ∧ ∃ node, data[head]? = some node ∧ node.data = some e.2 ∧
      Remaining node.next (data.set head { node with data := none }) entries := by
  obtain ⟨rfl, hrest⟩ := h.path
  obtain ⟨fresh, nodup⟩ := List.nodup_cons.mp h.nodup
  have hne : e.1 ≠ NULL := fun heq => h.not_null (by simp [heq])
  obtain ⟨node, hnode, hdata⟩ := Option.bind_eq_some_iff.mp (h.cells e (by simp))
  have set := LinkedList.view_setData ⟨NULL, NULL, NULL, data⟩ hnode none
  have next : nextOf (data.set e.1 { node with data := none }) = nextOf data :=
    congrArg View.next set
  have cell : cellOf (data.set e.1 { node with data := none }) =
      Function.update (cellOf data) e.1 none := congrArg View.cell set
  have link : nextOf data e.1 = node.next := by rw [nextOf, hnode]; rfl
  refine ⟨hne, node, hnode, hdata, ?_, nodup, fun hmem => h.not_null (by simp [hmem]), ?_⟩
  · rw [next, ← link]
    exact hrest
  · intro e' he'
    have other : e'.1 ≠ e.1 := fun heq => fresh (heq ▸ List.mem_map_of_mem he')
    rw [cell, Function.update_of_ne other]
    exact h.cells e' (List.mem_cons_of_mem e he')

theorem dropWalk_remaining {head : Nat} {data : List (Node T)} {entries : List (Nat × T)}
    (h : Remaining head data entries) {fuel : Nat} (hfuel : entries.length < fuel) :
    dropWalk data fuel head = some (.ok (entries.map Prod.snd)) := by
  induction entries generalizing head data fuel with
  | nil =>
      obtain ⟨fuel, rfl⟩ := Nat.exists_eq_succ_of_ne_zero (Nat.ne_zero_of_lt hfuel)
      rw [dropWalk, if_pos h.nil]
      rfl
  | cons e entries ih =>
      obtain ⟨fuel, rfl⟩ := Nat.exists_eq_succ_of_ne_zero (Nat.ne_zero_of_lt hfuel)
      obtain ⟨hne, node, hnode, hdata, rest⟩ := h.take
      simp only [dropWalk, if_neg hne, index_ok hnode, ih rest (Nat.lt_of_succ_lt_succ hfuel),
        hdata]
      rfl

theorem next_remaining {it : LinkedListIter T} {entries : List (Nat × T)}
    (h : Remaining it.head it.data entries) :
    ∃ it', it.next = .ok (it', (entries.map Prod.snd)[0]?) ∧
      Remaining it'.head it'.data entries.tail := by
  cases entries with
  | nil => exact ⟨it, by rw [LinkedListIter.next, if_pos h.nil]; rfl, h⟩
  | cons e entries =>
      obtain ⟨hne, node, hnode, hdata, rest⟩ := h.take
      refine ⟨⟨node.next, it.data.set it.head { node with data := none }⟩, ?_, rest⟩
      simp only [LinkedListIter.next, if_neg hne, index_ok hnode, bind, Except.bind, hdata]
      rfl

/-- So many calls of `next` answer with the values in order and then with
`None`, and leave the values after them. -/
theorem nexts_remaining {it : LinkedListIter T} {entries : List (Nat × T)}
    (h : Remaining it.head it.data entries) (n : Nat) :
    ∃ it', it.nexts n = .ok (it', (List.range n).map fun i => (entries.map Prod.snd)[i]?) ∧
      Remaining it'.head it'.data (entries.drop n) := by
  induction n generalizing it entries with
  | zero => exact ⟨it, rfl, h⟩
  | succ n ih =>
      obtain ⟨it₁, hnext, rest⟩ := next_remaining h
      obtain ⟨it₂, hnexts, left⟩ := ih rest
      refine ⟨it₂, ?_, by simpa [List.drop_one] using left⟩
      simp only [LinkedListIter.nexts, hnext, hnexts, bind, Except.bind, List.range_succ_eq_map,
        List.map_cons, List.map_map, ← List.drop_one]
      simp [Function.comp_def]

theorem forLoop_remaining {it : LinkedListIter T} {entries : List (Nat × T)}
    (h : Remaining it.head it.data entries) {fuel : Nat} (hfuel : entries.length < fuel) :
    it.forLoop fuel = some (.ok (entries.map Prod.snd)) := by
  induction entries generalizing it fuel with
  | nil =>
      obtain ⟨fuel, rfl⟩ := Nat.exists_eq_succ_of_ne_zero (Nat.ne_zero_of_lt hfuel)
      obtain ⟨it', hnext, -⟩ := next_remaining h
      simp only [LinkedListIter.forLoop, hnext]
      rfl
  | cons e entries ih =>
      obtain ⟨fuel, rfl⟩ := Nat.exists_eq_succ_of_ne_zero (Nat.ne_zero_of_lt hfuel)
      obtain ⟨it', hnext, rest⟩ := next_remaining h
      have more := ih rest (Nat.lt_of_succ_lt_succ hfuel)
      simp only [LinkedListIter.forLoop, hnext, List.map_cons, List.getElem?_cons_zero]
      rw [show it'.forLoop fuel = _ from more]
      rfl

theorem Threaded.remaining {ll : LinkedList T} {m : OrderedMap Nat T} {free : List Nat}
    (h : Threaded ll.view m free) : Remaining ll.head ll.data m.entries where
  path := by
    rw [m.entries_keys]
    exact h.linked.forward
  nodup := by
    rw [m.entries_keys]
    exact m.nodup
  not_null := by
    rw [m.entries_keys]
    exact fun hmem => h.not_null (List.mem_append_left _ hmem)
  cells := by
    intro e he
    have same : cellOf ll.data = m.value := h.cells
    rw [same]
    exact OrderedMap.mem_entries he

/-! Runs of operations. -/

/-- One operation on the insertion-ordered map. Which new key an insertion gets
is left open. -/
inductive MapStep : OrderedMap Nat T → Operation T × Answer T → OrderedMap Nat T → Prop
  | pushBack {m : OrderedMap Nat T} {val : T} {idx : Nat} (fresh : idx ∉ m.keys) :
      MapStep m (.pushBack val, .index idx) (m.insert idx val fresh)
  | remove {m : OrderedMap Nat T} {idx : Nat} :
      MapStep m (.remove idx, .value (m.value idx)) (m.erase idx)
  | get {m : OrderedMap Nat T} {idx : Nat} : MapStep m (.get idx, .value (m.value idx)) m
  | getMut {m : OrderedMap Nat T} {idx : Nat} {write : T → T} :
      MapStep m (.getMut idx write, .value (m.value idx)) (m.modify idx write)

/-- Every operation returns and is a step of the map, or asks for a longer vector
than there can be. The vector grows when it has no vacancy, and then it has none. -/
theorem Threaded.exec {ll : LinkedList T} {m : OrderedMap Nat T} {free : List Nat}
    (h : Threaded ll.view m free) (op : Operation T) :
    (free = [] ∧ ∃ val, op = .pushBack val ∧ ll.exec op = .error .capacityOverflow ∧
      ll.data.length = maxLen) ∨
    ∃ ll' answer m' free', ll.exec op = .ok (ll', answer) ∧ MapStep m (op, answer) m' ∧
      Threaded ll'.view m' free' ∧
      (ll'.data.length = ll.data.length ∨ free' = [] ∧ ll.data.length ≤ ll'.data.length) := by
  cases op with
  | pushBack val =>
      rcases h.pushBack val with ⟨hfree, hfull, hlen⟩ | ⟨ll', idx, fresh, hpush, threaded⟩
      · exact .inl ⟨hfree, val, rfl, by rw [LinkedList.exec, hfull]; rfl, hlen⟩
      · refine .inr ⟨ll', .index idx, _, _, by rw [LinkedList.exec, hpush]; rfl, .pushBack fresh,
          threaded, ?_⟩
        have before : m.keys.length + free.length = ll.data.length := h.length_eq
        have after : (m.keys ++ [idx]).length + free.tail.length = ll'.data.length :=
          threaded.length_eq
        rw [List.length_append, List.length_singleton] at after
        cases free with
        | nil =>
            simp only [List.tail_nil, List.length_nil] at before after
            exact .inr ⟨rfl, by omega⟩
        | cons i free =>
            simp only [List.tail_cons, List.length_cons] at before after
            exact .inl (by omega)
  | remove idx =>
      obtain ⟨ll', free', hremove, threaded, hlen⟩ := h.remove idx
      exact .inr ⟨ll', _, _, free', by rw [LinkedList.exec, hremove]; rfl, .remove, threaded,
        .inl hlen⟩
  | get idx =>
      refine .inr ⟨ll, _, m, free, rfl, ?_, h, .inl rfl⟩
      rw [LinkedList.get_eq, h.cells]
      exact .get
  | getMut idx write =>
      obtain ⟨hval, threaded⟩ := h.getMut idx write
      refine .inr ⟨(ll.getMut idx write).1, .value (ll.getMut idx write).2, _, free, rfl, ?_,
        threaded, .inl ?_⟩
      · rw [hval]
        exact .getMut
      · exact threaded.length_eq.symm.trans h.length_eq

/-- The list represents the map. -/
def Represents (ll : LinkedList T) (m : OrderedMap Nat T) : Prop :=
  ∃ free, Threaded ll.view m free

namespace Represents
variable {ll : LinkedList T} {m : OrderedMap Nat T}

theorem pushBack (h : Represents ll m) (val : T) :
    ll.pushBack val = .error .capacityOverflow ∧ ll.data.length = maxLen ∨
      ∃ ll' idx, ∃ fresh : idx ∉ m.keys, ll.pushBack val = .ok (ll', idx) ∧
        Represents ll' (m.insert idx val fresh) := by
  obtain ⟨free, threaded⟩ := h
  rcases threaded.pushBack val with ⟨-, hfull⟩ | ⟨ll', idx, fresh, hpush, threaded'⟩
  · exact .inl hfull
  · exact .inr ⟨ll', idx, fresh, hpush, free.tail, threaded'⟩

theorem remove (h : Represents ll m) (idx : Nat) :
    ∃ ll', ll.remove idx = .ok (ll', m.value idx) ∧ Represents ll' (m.erase idx) := by
  obtain ⟨free, threaded⟩ := h
  obtain ⟨ll', free', hremove, threaded', -⟩ := threaded.remove idx
  exact ⟨ll', hremove, free', threaded'⟩

theorem getMut (h : Represents ll m) (idx : Nat) (write : T → T) :
    (ll.getMut idx write).2 = m.value idx ∧
      Represents (ll.getMut idx write).1 (m.modify idx write) := by
  obtain ⟨free, threaded⟩ := h
  obtain ⟨hval, threaded'⟩ := threaded.getMut idx write
  exact ⟨hval, free, threaded'⟩

/-- Every operation returns and is a step of the map, or asks for a longer vector
than there can be. -/
theorem exec (h : Represents ll m) (op : Operation T) :
    (∃ val, op = .pushBack val ∧ ll.exec op = .error .capacityOverflow ∧
      ll.data.length = maxLen) ∨
    ∃ ll' answer m', ll.exec op = .ok (ll', answer) ∧ MapStep m (op, answer) m' ∧
      Represents ll' m' := by
  obtain ⟨free, threaded⟩ := h
  rcases threaded.exec op with ⟨-, hfull⟩ | ⟨ll', answer, m', free', hexec, hmap, threaded', -⟩
  · exact .inl hfull
  · exact .inr ⟨ll', answer, m', hexec, hmap, free', threaded'⟩

end Represents

theorem represents_run {tr : List (Operation T × Answer T)} {ll : LinkedList T}
    (h : Run listStep .new tr ll) :
    ∃ m, Run MapStep .empty tr m ∧ Represents ll m := by
  refine h.simulate (R := Represents) ?_ ⟨[], new_threaded⟩
  intro a l b m represents hstep
  obtain ⟨op, answer⟩ := l
  rcases represents.exec op with ⟨val, -, hfull, -⟩ | ⟨ll', answer', m', hexec, hmap, represents'⟩
  · rw [listStep, hfull] at hstep
    cases hstep
  · rw [listStep, hexec] at hstep
    cases hstep
    exact ⟨m', hmap, represents'⟩

/-- Over every sequence of operations the list answers as the insertion-ordered
map does; no operation indexes out of bounds; and all walks over it, a drop after
any number of calls of `next` included, visit what is left in order and end. -/
theorem linkedList_refines_orderedMap {tr : List (Operation T × Answer T)} {ll : LinkedList T}
    (h : Run listStep .new tr ll) :
    ∃ m : OrderedMap Nat T, Run MapStep .empty tr m ∧ (∀ idx, ll.get idx = m.value idx) ∧
      (∀ op, (∃ val, op = .pushBack val ∧ ll.exec op = .error .capacityOverflow ∧
          ll.data.length = maxLen) ∨
        ∃ ll' answer m', ll.exec op = .ok (ll', answer) ∧ MapStep m (op, answer) m') ∧
      (∀ n, ∃ it, ll.intoIter.nexts n = .ok (it, (List.range n).map fun i => m.values[i]?) ∧
        ∃ fuel, it.drop fuel = some (.ok (m.values.drop n))) ∧
      ∃ fuel, ll.drop fuel = some (.ok m.values) := by
  obtain ⟨m, hrun, represents⟩ := represents_run h
  obtain ⟨free, threaded⟩ := represents
  have remaining : Remaining ll.intoIter.head ll.intoIter.data m.entries := threaded.remaining
  refine ⟨m, hrun, fun idx => by rw [LinkedList.get_eq, threaded.cells], fun op => ?_,
    fun n => ?_, ?_⟩
  · rcases Represents.exec ⟨free, threaded⟩ op with hfull | ⟨ll', answer, m', hexec, hmap, -⟩
    · exact .inl hfull
    · exact .inr ⟨ll', answer, m', hexec, hmap⟩
  · obtain ⟨it, hnexts, left⟩ := nexts_remaining remaining n
    rw [m.entries_values] at hnexts
    refine ⟨it, hnexts, (m.entries.drop n).length + 1, ?_⟩
    rw [LinkedListIter.drop, dropWalk_remaining left (Nat.lt_succ_self _), List.map_drop,
      m.entries_values]
  · refine ⟨m.entries.length + 1, ?_⟩
    rw [LinkedList.drop, dropWalk_remaining threaded.remaining (Nat.lt_succ_self _),
      m.entries_values]

/-- A removed position is used again: the list and the map agree on it, and the
walk meets its new value last. -/
theorem reused_position_refines :
    ∃ (tr : List (Operation Nat × Answer Nat)) (ll : LinkedList Nat) (m : OrderedMap Nat Nat),
      Run listStep .new tr ll ∧ Run MapStep .empty tr m ∧ m.value 1 = some 2333 ∧
        ll.drop 4 = some (.ok [1, 3, 2333]) := by
  have run : Run listStep (.new : LinkedList Nat)
      [(.pushBack 1, .index 0), (.pushBack 2, .index 1), (.pushBack 3, .index 2),
        (.remove 1, .value (some 2)), (.remove 1, .value none), (.pushBack 2333, .index 1)] _ :=
    .cons rfl (.cons rfl (.cons rfl (.cons rfl (.cons rfl (.cons rfl .nil)))))
  obtain ⟨m, hmap, hget, -⟩ := linkedList_refines_orderedMap run
  exact ⟨_, _, m, run, hmap, (hget 1).symm.trans rfl, rfl⟩

end Monolake.Cancel
