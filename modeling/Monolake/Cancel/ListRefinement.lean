import Monolake.Cancel.LinkedList
import Monolake.Foundation.OrderedMap
import Monolake.Foundation.Path
import Monolake.Foundation.Runs

/-!
The linked list refines an insertion-ordered map from positions to values. The
live nodes are doubly linked in the order of insertion, the others are chained
from the vacancy head, and together they are all positions. A vacancy that is
used again keeps its old `prev` link, which only matters when the list is empty:
then the first vacancy is the node removed last, and its link is null.
-/
namespace Monolake.Cancel

universe u
open Foundation

variable {T : Type u}

/-! The list as functions of the position. -/

structure View (T : Type u) where
  head : Nat
  tail : Nat
  vacancyHead : Nat
  length : Nat
  next : Nat → Nat
  prev : Nat → Nat
  cell : Nat → Option T

def nextOf (data : List (Node T)) (i : Nat) : Nat := (data[i]?.map Node.next).getD NULL

def prevOf (data : List (Node T)) (i : Nat) : Nat := (data[i]?.map Node.prev).getD NULL

def cellOf (data : List (Node T)) (i : Nat) : Option T := data[i]?.bind Node.data

def LinkedList.view (ll : LinkedList T) : View T :=
  { head := ll.head, tail := ll.tail, vacancyHead := ll.vacancyHead, length := ll.data.length,
    next := nextOf ll.data, prev := prevOf ll.data, cell := cellOf ll.data }

theorem index_ok {data : List (Node T)} {i : Nat} {node : Node T} (h : data[i]? = some node) :
    index data i = .ok node := by
  rw [index, h]

namespace LinkedList
variable (ll : LinkedList T) {i : Nat} {node : Node T}

theorem view_next (h : ll.data[i]? = some node) : ll.view.next i = node.next := by
  simp [view, nextOf, h]

theorem view_prev (h : ll.data[i]? = some node) : ll.view.prev i = node.prev := by
  simp [view, prevOf, h]

theorem view_cell (h : ll.data[i]? = some node) : ll.view.cell i = node.data := by
  simp [view, cellOf, h]

theorem view_set (h : ll.data[i]? = some node) (node' : Node T) :
    ({ ll with data := ll.data.set i node' } : LinkedList T).view = { ll.view with
      next := Function.update ll.view.next i node'.next,
      prev := Function.update ll.view.prev i node'.prev,
      cell := Function.update ll.view.cell i node'.data } := by
  have bound := (List.getElem?_eq_some_iff.mp h).1
  simp only [view, List.length_set, View.mk.injEq, true_and]
  refine ⟨?_, ?_, ?_⟩ <;> funext j <;> by_cases hj : j = i
  · simp [nextOf, hj, bound]
  · simp [nextOf, hj, List.getElem?_set_ne (Ne.symm hj)]
  · simp [prevOf, hj, bound]
  · simp [prevOf, hj, List.getElem?_set_ne (Ne.symm hj)]
  · simp [cellOf, hj, bound]
  · simp [cellOf, hj, List.getElem?_set_ne (Ne.symm hj)]

theorem view_reuse (h : ll.data[i]? = some node) (j : Nat) (val : Option T) :
    ({ ll with data := ll.data.set i { node with next := j, data := val } } : LinkedList T).view =
      { ll.view with
        next := Function.update ll.view.next i j,
        cell := Function.update ll.view.cell i val } := by
  rw [view_set ll h, ← view_prev ll h, Function.update_eq_self]

theorem view_setNext (h : ll.data[i]? = some node) (j : Nat) :
    ({ ll with data := ll.data.set i { node with next := j } } : LinkedList T).view =
      { ll.view with next := Function.update ll.view.next i j } := by
  rw [view_set ll h, ← view_prev ll h, ← view_cell ll h, Function.update_eq_self,
    Function.update_eq_self]

theorem view_setPrev (h : ll.data[i]? = some node) (j : Nat) :
    ({ ll with data := ll.data.set i { node with prev := j } } : LinkedList T).view =
      { ll.view with prev := Function.update ll.view.prev i j } := by
  rw [view_set ll h, ← view_next ll h, ← view_cell ll h, Function.update_eq_self,
    Function.update_eq_self]

theorem view_setData (h : ll.data[i]? = some node) (val : Option T) :
    ({ ll with data := ll.data.set i { node with data := val } } : LinkedList T).view =
      { ll.view with cell := Function.update ll.view.cell i val } := by
  rw [view_set ll h, ← view_next ll h, ← view_prev ll h, Function.update_eq_self,
    Function.update_eq_self]

/-- A node pushed onto the vector, with null links. -/
theorem view_push (val : T) :
    ({ ll with data := ll.data ++ [⟨NULL, NULL, some val⟩] } : LinkedList T).view =
      { ll.view with
        length := ll.view.length + 1,
        next := Function.update ll.view.next ll.view.length NULL,
        cell := Function.update ll.view.cell ll.view.length (some val) } := by
  have other : ∀ {j}, j ≠ ll.data.length →
      (ll.data ++ [⟨NULL, NULL, some val⟩])[j]? = ll.data[j]? := by
    intro j hj
    by_cases hlt : j < ll.data.length
    · exact List.getElem?_append_left hlt
    · rw [List.getElem?_eq_none (by simp; omega), List.getElem?_eq_none (by omega)]
  simp only [view, List.length_append, List.length_singleton, View.mk.injEq, true_and]
  refine ⟨?_, ?_, ?_⟩ <;> funext j <;> by_cases hj : j = ll.data.length
  · simp [nextOf, hj]
  · simp [nextOf, other hj, hj]
  · simp [prevOf, hj]
  · simp [prevOf, other hj]
  · simp [cellOf, hj]
  · simp [cellOf, other hj, hj]

theorem exists_node (h : i < ll.view.length) : ∃ node, ll.data[i]? = some node :=
  ⟨_, List.getElem?_eq_getElem h⟩

theorem get_eq (idx : Nat) : ll.get idx = ll.view.cell idx := rfl

end LinkedList

/-! The invariant. -/

/-- `m.keys` are the live nodes, `free` the vacancies. -/
structure Threaded (v : View T) (m : OrderedMap Nat T) (free : List Nat) : Prop where
  linked : Linked NULL v.next v.prev v.head v.tail m.keys
  vacant : Path v.next v.vacancyHead free NULL
  nodup : (m.keys ++ free).Nodup
  places : ∀ i, i ∈ m.keys ++ free ↔ i < v.length
  bounded : v.length ≤ maxLen
  cells : v.cell = m.value
  fresh : m.keys = [] → ∀ i ∈ free.head?, v.prev i = NULL

/-- The state between the halves of `push_back`: `idx` is neither live nor vacant. -/
structure Detached (v : View T) (m : OrderedMap Nat T) (idx : Nat) (val : T)
    (free : List Nat) : Prop where
  linked : Linked NULL v.next v.prev v.head v.tail m.keys
  vacant : Path v.next v.vacancyHead free NULL
  nodup : (m.keys ++ idx :: free).Nodup
  places : ∀ i, i ∈ m.keys ++ idx :: free ↔ i < v.length
  bounded : v.length ≤ maxLen
  cells : v.cell = Function.update m.value idx (some val)
  next_null : v.next idx = NULL
  fresh : m.keys = [] → v.prev idx = NULL

theorem new_threaded : Threaded (LinkedList.new : LinkedList T).view .empty [] where
  linked := ⟨rfl, rfl⟩
  vacant := rfl
  nodup := .nil
  places := by simp [OrderedMap.empty, LinkedList.view, LinkedList.new]
  bounded := Nat.zero_le _
  cells := by
    funext i
    simp [OrderedMap.empty, LinkedList.view, LinkedList.new, cellOf]
  fresh := by simp

section Operations
variable {ll : LinkedList T} {m : OrderedMap Nat T} {free : List Nat}

theorem Threaded.not_null {v : View T} (h : Threaded v m free) : NULL ∉ m.keys ++ free := by
  intro hmem
  have := (h.places NULL).mp hmem
  have := h.bounded
  simp only [NULL, maxLen] at *
  omega

/-- Live nodes and vacancies make up the vector. -/
theorem Threaded.length_eq {v : View T} (h : Threaded v m free) :
    m.keys.length + free.length = v.length := by
  have all : (m.keys ++ free).Perm (List.range v.length) := by
    rw [List.perm_ext_iff_of_nodup h.nodup List.nodup_range]
    intro i
    rw [h.places, List.mem_range]
  have count := all.length_eq
  rw [List.length_append, List.length_range] at count
  exact count

theorem Detached.fresh_key {v : View T} {idx : Nat} {val : T} (h : Detached v m idx val free) :
    idx ∉ m.keys := by
  intro hmem
  have := (List.nodup_append.mp h.nodup).2.2 idx hmem idx (by simp)
  exact this rfl

/-- `push_back` takes the first vacancy or, when there is none, a new node; the vector may
be as long as it can get. -/
theorem Threaded.allocate (h : Threaded ll.view m free) (val : T) :
    (free = [] ∧ ll.allocate val = .error .capacityOverflow ∧ ll.data.length = maxLen) ∨
      ∃ ll' idx, ll.allocate val = .ok (ll', idx) ∧ Detached ll'.view m idx val free.tail := by
  rw [LinkedList.allocate]
  cases free with
  | nil =>
      have hnull : ll.vacancyHead = NULL := h.vacant
      rw [if_neg (by simp [hnull])]
      split
      · rename_i hlen
        right
        have places : ∀ i, i ∈ m.keys ↔ i < ll.view.length := by simpa using h.places
        have hfresh : ll.view.length ∉ m.keys := fun hmem =>
          Nat.lt_irrefl _ ((places _).mp hmem)
        refine ⟨_, _, rfl, ?_⟩
        rw [LinkedList.view_push, List.tail_nil]
        constructor
        · refine ⟨(Path.update hfresh).mpr h.linked.forward, h.linked.backward⟩
        · exact h.vacant
        · exact (m.insert ll.view.length val hfresh).nodup
        · intro i
          simp only [List.mem_append, List.mem_singleton, places]
          change i < ll.view.length ∨ i = ll.view.length ↔ i < ll.view.length + 1
          omega
        · exact hlen
        · exact congrArg (Function.update · _ _) h.cells
        · exact Function.update_self ..
        · intro _
          simp [LinkedList.view, prevOf]
      · rename_i hlen
        have := h.bounded
        exact .inl ⟨rfl, rfl, Nat.le_antisymm this (Nat.le_of_not_lt hlen)⟩
  | cons idx free =>
      obtain ⟨hidx, hvacant⟩ := h.vacant
      have hmem : idx ∈ m.keys ++ idx :: free := by simp
      have hne : idx ≠ NULL := fun heq => h.not_null (heq ▸ hmem)
      obtain ⟨node, hnode⟩ := LinkedList.exists_node ll ((h.places idx).mp hmem)
      have hhead : ll.vacancyHead = idx := hidx
      have apart := List.nodup_append.mp h.nodup
      have hkeys : idx ∉ m.keys := fun hk => apart.2.2 idx hk idx (by simp) rfl
      have hfree : idx ∉ free := (List.nodup_cons.mp apart.2.1).1
      right
      rw [if_pos (by rw [hhead]; exact hne), hhead]
      simp only [index_ok hnode]
      refine ⟨_, idx, rfl, ?_⟩
      have hview : LinkedList.view { ll with
            vacancyHead := node.next,
            data := ll.data.set idx { node with next := NULL, data := some val } } =
          { ll.view with
            vacancyHead := ll.view.next idx,
            next := Function.update ll.view.next idx NULL,
            cell := Function.update ll.view.cell idx (some val) } := by
        rw [LinkedList.view_next ll hnode]
        exact congrArg (fun v : View T => { v with vacancyHead := node.next })
          (LinkedList.view_reuse ll hnode NULL (some val))
      simp only [hview, List.tail_cons]
      constructor
      · exact ⟨(Path.update hkeys).mpr h.linked.forward, h.linked.backward⟩
      · exact (Path.update hfree).mpr hvacant
      · exact h.nodup
      · exact h.places
      · exact h.bounded
      · exact congrArg (Function.update · _ _) h.cells
      · exact Function.update_self ..
      · intro hempty
        exact h.fresh hempty idx rfl

/-- The detached node becomes the last live one. -/
theorem Detached.linkBack {idx : Nat} {val : T} (h : Detached ll.view m idx val free) :
    ∃ ll', ll.linkBack idx = .ok ll' ∧
      Threaded ll'.view (m.insert idx val h.fresh_key) free := by
  have apart := List.nodup_append.mp h.nodup
  have hfree : idx ∉ free := (List.nodup_cons.mp apart.2.1).1
  have hplaces : ∀ i, i ∈ (m.insert idx val h.fresh_key).keys ++ free ↔ i < ll.view.length := by
    intro i
    rw [← h.places]
    simp [OrderedMap.insert]
  have hnodup : ((m.insert idx val h.fresh_key).keys ++ free).Nodup := by
    simpa [OrderedMap.insert] using h.nodup
  have hnull : NULL ∉ m.keys := by
    intro hmem
    have := (h.places NULL).mp (by simp [hmem])
    have := h.bounded
    simp only [NULL, maxLen] at *
    omega
  have nonempty : (m.insert idx val h.fresh_key).keys ≠ [] := by simp [OrderedMap.insert]
  have htail : ll.tail = m.keys.getLast?.getD NULL := h.linked.tail_eq
  rw [LinkedList.linkBack]
  cases hl : m.keys.getLast? with
  | none =>
      rw [List.getLast?_eq_none_iff] at hl
      have hnone : ll.tail = NULL := by rw [htail, hl]; rfl
      rw [if_pos hnone]
      refine ⟨_, rfl, ?_⟩
      constructor
      · have keys : (m.insert idx val h.fresh_key).keys = [idx] := by simp [OrderedMap.insert, hl]
        rw [keys]
        exact .singleton h.next_null (h.fresh hl)
      · exact h.vacant
      · exact hnodup
      · exact hplaces
      · exact h.bounded
      · exact h.cells
      · exact fun hempty => absurd hempty nonempty
  | some t =>
      obtain ⟨l, hkeys⟩ := List.getLast?_eq_some_iff.mp hl
      rw [hl, Option.getD_some] at htail
      have ht : t ∈ m.keys := by simp [hkeys]
      have hne : ll.tail ≠ NULL := fun heq => hnull (heq ▸ htail ▸ ht)
      have hti : t ≠ idx := fun heq => h.fresh_key (heq ▸ ht)
      have htfree : t ∉ free := fun hmem => apart.2.2 t ht t (by simp [hmem]) rfl
      obtain ⟨tailNode, htailNode⟩ :=
        LinkedList.exists_node ll ((h.places t).mp (by simp [ht]))
      obtain ⟨node, hnode⟩ :=
        LinkedList.exists_node ll ((h.places idx).mp (by simp))
      rw [if_neg hne, htail]
      have hnode' : (ll.data.set t { tailNode with next := idx })[idx]? = some node := by
        rw [List.getElem?_set_ne hti, hnode]
      have hview : LinkedList.view { ll with
            data := (ll.data.set t { tailNode with next := idx }).set idx { node with prev := t },
            tail := idx } =
          { ll.view with
            tail := idx,
            next := Function.update ll.view.next t idx,
            prev := Function.update ll.view.prev idx t } := by
        have hset := LinkedList.view_setPrev
          { ll with data := ll.data.set t { tailNode with next := idx } } hnode' t
        rw [LinkedList.view_setNext ll htailNode] at hset
        exact congrArg (fun v : View T => { v with tail := idx }) hset
      simp only [index_ok htailNode, index_ok hnode', bind, Except.bind]
      refine ⟨_, rfl, ?_⟩
      rw [hview]
      have linked := h.linked
      rw [hkeys] at linked
      constructor
      · have keys : (m.insert idx val h.fresh_key).keys = l ++ [t] ++ [idx] := by
          simp [OrderedMap.insert, hkeys]
        rw [keys]
        exact linked.push (hkeys ▸ m.nodup) (hkeys ▸ h.fresh_key) h.next_null
      · exact (Path.update htfree).mpr h.vacant
      · exact hnodup
      · exact hplaces
      · exact h.bounded
      · exact h.cells
      · exact fun hempty => absurd hempty nonempty

theorem Threaded.pushBack (h : Threaded ll.view m free) (val : T) :
    (free = [] ∧ ll.pushBack val = .error .capacityOverflow ∧ ll.data.length = maxLen) ∨
      ∃ ll' idx, ∃ fresh : idx ∉ m.keys, ll.pushBack val = .ok (ll', idx) ∧
        Threaded ll'.view (m.insert idx val fresh) free.tail := by
  rcases h.allocate val with ⟨hfree, hfull, hlen⟩ | ⟨ll₁, idx, halloc, detached⟩
  · exact .inl ⟨hfree, by rw [LinkedList.pushBack, hfull]; rfl, hlen⟩
  · obtain ⟨ll₂, hlink, threaded⟩ := detached.linkBack
    refine .inr ⟨ll₂, idx, detached.fresh_key, ?_, threaded⟩
    simp only [LinkedList.pushBack, halloc, hlink, bind, Except.bind]

/-! Removal. -/

theorem unlinkPrev_view (ll : LinkedList T) {prev : Nat}
    (h : prev ≠ NULL → prev < ll.view.length) (next : Nat) :
    ∃ ll', ll.unlinkPrev prev next = .ok ll' ∧ ll'.view = { ll.view with
      head := if prev = NULL then next else ll.view.head,
      next := if prev = NULL then ll.view.next
        else Function.update ll.view.next prev next } := by
  rw [LinkedList.unlinkPrev]
  split
  · exact ⟨_, rfl, rfl⟩
  · rename_i hne
    obtain ⟨node, hnode⟩ := LinkedList.exists_node ll (h hne)
    simp only [index_ok hnode, bind, Except.bind]
    exact ⟨_, rfl, LinkedList.view_setNext ll hnode next⟩

theorem unlinkNext_view (ll : LinkedList T) {next : Nat}
    (h : next ≠ NULL → next < ll.view.length) (prev : Nat) :
    ∃ ll', ll.unlinkNext prev next = .ok ll' ∧ ll'.view = { ll.view with
      tail := if next = NULL then prev else ll.view.tail,
      prev := if next = NULL then ll.view.prev
        else Function.update ll.view.prev next prev } := by
  rw [LinkedList.unlinkNext]
  split
  · exact ⟨_, rfl, rfl⟩
  · rename_i hne
    obtain ⟨node, hnode⟩ := LinkedList.exists_node ll (h hne)
    simp only [index_ok hnode, bind, Except.bind]
    exact ⟨_, rfl, LinkedList.view_setPrev ll hnode prev⟩

theorem vacate_view (ll : LinkedList T) {idx : Nat} (h : idx < ll.view.length) :
    ∃ ll', ll.vacate idx = .ok ll' ∧ ll'.view = { ll.view with
      vacancyHead := idx,
      next := Function.update ll.view.next idx ll.view.vacancyHead } := by
  obtain ⟨node, hnode⟩ := LinkedList.exists_node ll h
  simp only [LinkedList.vacate, index_ok hnode, bind, Except.bind]
  refine ⟨_, rfl, ?_⟩
  exact congrArg (fun v : View T => { v with vacancyHead := idx })
    (LinkedList.view_setNext ll hnode ll.vacancyHead)

theorem Threaded.remove_dead (h : Threaded ll.view m free) {idx : Nat} (hidx : idx ∉ m.keys) :
    ll.remove idx = .ok (ll, none) := by
  have empty : ll.view.cell idx = none := by
    rw [h.cells]
    exact OrderedMap.value_eq_none.mpr hidx
  rw [LinkedList.remove]
  split
  · rfl
  · rename_i hlt
    obtain ⟨node, hnode⟩ := LinkedList.exists_node ll (Nat.lt_of_not_le hlt)
    rw [LinkedList.view_cell ll hnode] at empty
    simp only [index_ok hnode, empty, bind, Except.bind]

/-- What `remove` does to a live node, in one step. -/
theorem LinkedList.remove_view (ll : LinkedList T) {idx : Nat} {val : T}
    (hidx : idx < ll.view.length)
    (hcell : ll.view.cell idx = some val)
    (hprev : ll.view.prev idx ≠ NULL → ll.view.prev idx < ll.view.length)
    (hnext : ll.view.next idx ≠ NULL → ll.view.next idx < ll.view.length) :
    ∃ ll', ll.remove idx = .ok (ll', some val) ∧ ll'.view = { ll.view with
      head := if ll.view.prev idx = NULL then ll.view.next idx else ll.view.head,
      tail := if ll.view.next idx = NULL then ll.view.prev idx else ll.view.tail,
      vacancyHead := idx,
      next := Function.update
        (if ll.view.prev idx = NULL then ll.view.next
          else Function.update ll.view.next (ll.view.prev idx) (ll.view.next idx))
        idx ll.view.vacancyHead,
      prev := if ll.view.next idx = NULL then ll.view.prev
        else Function.update ll.view.prev (ll.view.next idx) (ll.view.prev idx),
      cell := Function.update ll.view.cell idx none } := by
  obtain ⟨node, hnode⟩ := exists_node ll hidx
  rw [view_cell ll hnode] at hcell
  rw [view_prev ll hnode] at hprev ⊢
  rw [view_next ll hnode] at hnext ⊢
  let taken : LinkedList T := { ll with data := ll.data.set idx { node with data := none } }
  have hview₀ : taken.view = { ll.view with cell := Function.update ll.view.cell idx none } :=
    view_setData ll hnode none
  have hlen₀ : taken.view.length = ll.view.length := by rw [hview₀]
  obtain ⟨ll₁, h₁, hview₁⟩ := unlinkPrev_view taken (hlen₀ ▸ hprev) node.next
  have hlen₁ : ll₁.view.length = ll.view.length := by rw [hview₁, hlen₀]
  obtain ⟨ll₂, h₂, hview₂⟩ := unlinkNext_view ll₁ (hlen₁ ▸ hnext) node.prev
  have hlen₂ : ll₂.view.length = ll.view.length := by rw [hview₂, hlen₁]
  obtain ⟨ll₃, h₃, hview₃⟩ := vacate_view ll₂ (hlen₂ ▸ hidx)
  refine ⟨ll₃, ?_, ?_⟩
  · have hlt : ¬ idx ≥ ll.data.length := Nat.not_le_of_lt hidx
    simp only [remove, if_neg hlt, index_ok hnode, hcell, bind, Except.bind]
    simp only [taken] at h₁
    simp only [h₁, h₂, h₃]
  · rw [hview₃, hview₂, hview₁, hview₀]

/-- Removing a live node: its value is returned, and the node is the first vacancy. -/
theorem Threaded.remove_live (h : Threaded ll.view m free) {idx : Nat} (hidx : idx ∈ m.keys) :
    ∃ ll' val, m.value idx = some val ∧ ll.remove idx = .ok (ll', some val) ∧
      Threaded ll'.view (m.erase idx) (idx :: free) := by
  obtain ⟨val, hval⟩ := Option.ne_none_iff_exists'.mp ((m.mem_keys idx).mp hidx)
  obtain ⟨l, l', hkeys⟩ := List.append_of_mem hidx
  have linked := h.linked
  rw [hkeys] at linked
  have nodup := h.nodup
  rw [hkeys] at nodup
  have nodup_keys : (l ++ idx :: l').Nodup := hkeys ▸ m.nodup
  have inside : ∀ i ∈ l ++ idx :: l', i < ll.view.length := fun i hi =>
    (h.places i).mp (List.mem_append_left _ (hkeys ▸ hi))
  have hnull : NULL ∉ l ++ idx :: l' := fun hmem =>
    h.not_null (List.mem_append_left _ (hkeys ▸ hmem))
  have apart : ∀ i ∈ l ++ idx :: l', i ∉ free := fun i hi hf =>
    (List.nodup_append.mp nodup).2.2 i hi i hf rfl
  have erased : (m.erase idx).keys = l ++ l' := by
    have hl : idx ∉ l := fun hmem =>
      (List.nodup_append.mp nodup_keys).2.2 idx hmem idx (by simp) rfl
    change m.keys.erase idx = _
    rw [hkeys, List.erase_append_right _ hl, List.erase_cons_head]
  have hprev : ll.view.prev idx ≠ NULL → ll.view.prev idx ∈ l := by
    intro hne
    rw [linked.prev_eq] at hne ⊢
    cases hl : l.getLast? with
    | none => simp [hl] at hne
    | some j => exact List.mem_of_getLast? hl
  have hnext : ll.view.next idx ≠ NULL → ll.view.next idx ∈ l' := by
    intro hne
    rw [linked.next_eq] at hne ⊢
    cases hl : l'.head? with
    | none => simp [hl] at hne
    | some j => exact List.mem_of_head? hl
  obtain ⟨ll', hremove, hview⟩ := LinkedList.remove_view ll (inside idx (by simp))
    (by rw [h.cells, hval])
    (fun hne => inside _ (by simp [hprev hne])) (fun hne => inside _ (by simp [hnext hne]))
  refine ⟨ll', val, hval, hremove, ?_⟩
  have others : idx ∉ l ++ l' := by
    have := List.nodup_middle.mp nodup_keys
    exact (List.nodup_cons.mp this).1
  have perm : (l ++ idx :: l' ++ free).Perm (l ++ l' ++ idx :: free) := by
    have front : (l ++ idx :: l').Perm (idx :: (l ++ l')) := List.perm_middle
    have back : (l ++ l' ++ idx :: free).Perm (idx :: (l ++ l' ++ free)) := List.perm_middle
    exact (front.append_right free).trans back.symm
  rw [hview]
  constructor
  · rw [erased]
    have unlinked := linked.unlink nodup_keys hnull
    exact ⟨(Path.update others).mpr unlinked.forward, unlinked.backward⟩
  · refine ⟨rfl, ?_⟩
    dsimp only
    rw [Function.update_self]
    refine (Path.update (apart idx (by simp))).mpr ?_
    split
    · exact h.vacant
    · rename_i hne
      exact (Path.update (apart _ (by simp [hprev hne]))).mpr h.vacant
  · rw [erased]
    exact perm.nodup_iff.mp nodup
  · intro i
    rw [erased, ← perm.mem_iff, ← hkeys]
    exact h.places i
  · exact h.bounded
  · exact congrArg (Function.update · _ _) h.cells
  · intro hempty i hi
    obtain rfl := Option.some.inj hi
    rw [erased, List.append_eq_nil_iff] at hempty
    have hn : ll.view.next idx = NULL := by rw [linked.next_eq, hempty.2]; rfl
    have hp : ll.view.prev idx = NULL := by rw [linked.prev_eq, hempty.1]; rfl
    simp only [hn, if_true]
    exact hp

theorem Threaded.remove (h : Threaded ll.view m free) (idx : Nat) :
    ∃ ll' free', ll.remove idx = .ok (ll', m.value idx) ∧
      Threaded ll'.view (m.erase idx) free' ∧ ll'.data.length = ll.data.length := by
  by_cases hidx : idx ∈ m.keys
  · obtain ⟨ll', val, hval, hremove, threaded⟩ := h.remove_live hidx
    refine ⟨ll', _, by rw [hval, hremove], threaded, ?_⟩
    have before : m.keys.length + free.length = ll.data.length := h.length_eq
    have after : (m.keys.erase idx).length + (free.length + 1) = ll'.data.length :=
      threaded.length_eq
    have erased := List.length_erase_add_one hidx
    omega
  · rw [OrderedMap.value_eq_none.mpr hidx, OrderedMap.erase_of_not_mem hidx]
    exact ⟨ll, free, h.remove_dead hidx, h, rfl⟩

/-- Writing through `get_mut`. -/
theorem Threaded.getMut (h : Threaded ll.view m free) (idx : Nat) (write : T → T) :
    (ll.getMut idx write).2 = m.value idx ∧
      Threaded (ll.getMut idx write).1.view (m.modify idx write) free := by
  have hvalue : ll.get idx = m.value idx := by rw [LinkedList.get_eq, h.cells]
  rw [LinkedList.getMut]
  cases hnode : ll.data[idx]? with
  | none =>
      have hnone : m.value idx = none := by rw [← hvalue, LinkedList.get, hnode]; rfl
      rw [OrderedMap.modify_of_not_mem write (OrderedMap.value_eq_none.mp hnone)]
      exact ⟨hnone.symm, h⟩
  | some node =>
      have hcell : m.value idx = node.data := by rw [← hvalue, LinkedList.get, hnode]; rfl
      refine ⟨hcell.symm, ?_⟩
      rw [LinkedList.view_setData ll hnode]
      refine ⟨h.linked, h.vacant, h.nodup, h.places, h.bounded, ?_, h.fresh⟩
      change Function.update ll.view.cell idx (node.data.map write) =
        Function.update m.value idx ((m.value idx).map write)
      rw [h.cells, hcell]

end Operations

end Monolake.Cancel
