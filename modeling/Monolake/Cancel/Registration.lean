import Mathlib.Data.List.Perm.Subperm
import Monolake.Cancel.Canceller
import Monolake.Cancel.ListWalk
import Monolake.Foundation.Latest

/-!
Waiters and their places in the list. Until the cancel, each waiter that has
been polled and not dropped owns one live node, which holds the waker of its
last poll, and the nodes stand in the order of the first polls. So the wakers
that a cancel takes out of the list are those of the waiting parties.
-/
namespace Monolake.Cancel

universe u
open Foundation

variable {W : Type u}

abbrev Event (W : Type u) := Op W × Outcome W

/-! Reading the history. -/

/-- The waker and the result of a poll of waiter `i`. -/
def polled (i : Nat) : Event W → Option (W × Poll)
  | (.poll j waker, out) => if j = i then out.poll.map (waker, ·) else none
  | _ => none

/-- The last poll of waiter `i`, with the history before it. -/
def lastPoll (tr : List (Event W)) (i : Nat) : Option (List (Event W) × W × Poll) :=
  latest (polled i) tr

/-- The waiter whose poll was left pending. -/
def leftPending : Event W → Option Nat
  | (.poll i _, { poll := some .pending, .. }) => some i
  | _ => none

/-- Waiters in the order of their first pending poll. -/
def registered (tr : List (Event W)) : List Nat :=
  tr.foldl (fun is e =>
    match leftPending e with
    | some i => if i ∈ is then is else is ++ [i]
    | none => is) []

def cancels : Op W → Bool
  | .cancel | .dropDropper => true
  | _ => false

/-- The waker of the last poll of waiter `i`, if that left it pending and it is
still alive. -/
def waiting (tr : List (Event W)) (s : Cancellation W) (i : Nat) : Option W :=
  match s.waiters[i]?, lastPoll tr i with
  | some { alive := true, .. }, some (_, waker, .pending) => some waker
  | _, _ => none

theorem registered_snoc (tr : List (Event W)) (e : Event W) :
    registered (tr ++ [e]) =
      match leftPending e with
      | some i => if i ∈ registered tr then registered tr else registered tr ++ [i]
      | none => registered tr := by
  rw [registered, List.foldl_append]
  rfl

/-- No waiter is registered twice. -/
theorem registered_nodup (tr : List (Event W)) : (registered tr).Nodup := by
  induction tr using List.reverseRecOn with
  | nil => exact .nil
  | append_singleton tr e ih =>
      rw [registered_snoc]
      cases leftPending e with
      | none => exact ih
      | some i =>
          by_cases hi : i ∈ registered tr
          · simpa [hi] using ih
          · simp only [hi, if_false]
            refine List.nodup_append.mpr ⟨ih, List.nodup_singleton i, fun a ha b hb heq => hi ?_⟩
            rwa [← List.mem_singleton.mp hb, ← heq]

/-- Registered are the waiters that some poll has left pending. -/
theorem mem_registered {i : Nat} (tr : List (Event W)) :
    i ∈ registered tr ↔ ∃ e ∈ tr, leftPending e = some i := by
  induction tr using List.reverseRecOn with
  | nil => simp [registered]
  | append_singleton tr e ih =>
      have last : (∃ e' ∈ tr ++ [e], leftPending e' = some i) ↔
          i ∈ registered tr ∨ leftPending e = some i := by
        simp [ih, or_and_right, exists_or]
      rw [last, registered_snoc]
      cases leftPending e with
      | none => simp
      | some j =>
          by_cases hj : j ∈ registered tr
          · simp only [hj, if_true, Option.some.injEq]
            exact ⟨.inl, fun h => h.elim id fun heq => heq ▸ hj⟩
          · simp [hj, eq_comm]

theorem polled_some {i : Nat} {e : Event W} {waker : W} {result : Poll}
    (h : polled i e = some (waker, result)) :
    e.1 = .poll i waker ∧ e.2.poll = some result := by
  obtain ⟨op, out⟩ := e
  cases op with
  | poll j waker' =>
      by_cases hj : j = i
      · subst hj
        simp only [polled, if_true, Option.map_eq_some_iff, Prod.mk.injEq] at h
        obtain ⟨result', hout, rfl, rfl⟩ := h
        exact ⟨rfl, hout⟩
      · simp [polled, hj] at h
  | _ => cases h

theorem pending_registered {tr past : List (Event W)} {i : Nat} {waker : W}
    (h : lastPoll tr i = some (past, waker, .pending)) : i ∈ registered tr := by
  obtain ⟨e, post, rfl, hpolled, -⟩ := latest_eq_some h
  obtain ⟨hop, hout⟩ := polled_some hpolled
  refine (mem_registered _).mpr ⟨e, by simp, ?_⟩
  obtain ⟨op, poll, woken⟩ := e
  obtain rfl : op = .poll i waker := hop
  obtain rfl : poll = some .pending := hout
  rfl

/-- A waiting party is registered. -/
theorem waiting_registered {tr : List (Event W)} {s : Cancellation W} {i : Nat}
    (h : waiting tr s i ≠ none) : i ∈ registered tr := by
  rw [waiting] at h
  split at h
  · rename_i hlast
    exact pending_registered hlast
  · cases h rfl

/-! Waiters and nodes. -/

namespace Cancellation

def indexOf (s : Cancellation W) (i : Nat) : Option Nat := s.waiters[i]?.bind (·.index)

/-- The node of a waiter that is alive. -/
def slot (s : Cancellation W) (i : Nat) : Option Nat :=
  s.waiters[i]?.bind fun wt => if wt.alive then wt.index else none

theorem indexOf_setWaiter {s : Cancellation W} {i : Nat} {wt : Waiter}
    (h : s.waiters[i]? = some wt) (wt' : Waiter) :
    (s.setWaiter i wt').indexOf = Function.update s.indexOf i wt'.index := by
  have bound := (List.getElem?_eq_some_iff.mp h).1
  funext j
  by_cases hj : j = i
  · subst hj
    simp [indexOf, setWaiter, bound]
  · simp [indexOf, setWaiter, hj, List.getElem?_set_ne (Ne.symm hj)]

theorem slot_setWaiter {s : Cancellation W} {i : Nat} {wt : Waiter}
    (h : s.waiters[i]? = some wt) (wt' : Waiter) :
    (s.setWaiter i wt').slot =
      Function.update s.slot i (if wt'.alive then wt'.index else none) := by
  have bound := (List.getElem?_eq_some_iff.mp h).1
  funext j
  by_cases hj : j = i
  · subst hj
    simp [slot, setWaiter, bound]
  · simp [slot, setWaiter, hj, List.getElem?_set_ne (Ne.symm hj)]

theorem waiter_getElem? (s : Cancellation W) {β : Type} (f : Waiter → Option β)
    (hf : f { index := none, alive := true } = none) (i : Nat) :
    s.waiter.waiters[i]?.bind f = s.waiters[i]?.bind f := by
  rw [waiter]
  dsimp only
  by_cases hi : i < s.waiters.length
  · rw [List.getElem?_append_left hi]
  · rw [List.getElem?_append_right (by omega),
      List.getElem?_eq_none (by omega : s.waiters.length ≤ i)]
    cases hj : i - s.waiters.length with
    | zero => simp [hf]
    | succ j => simp

theorem indexOf_waiter (s : Cancellation W) : s.waiter.indexOf = s.indexOf :=
  funext (s.waiter_getElem? _ rfl)

theorem slot_waiter (s : Cancellation W) : s.waiter.slot = s.slot :=
  funext (s.waiter_getElem? _ rfl)

end Cancellation

/-- Before the cancel: `m` is what the list of wakers represents. -/
structure Registered (tr : List (Event W)) (s : Cancellation W) (m : OrderedMap Nat W) : Prop where
  represents : Represents s.handler.waiters m
  keys : m.keys = (registered tr).filterMap s.slot
  indexed : ∀ i, i ∈ registered tr ↔ s.indexOf i ≠ none
  owned : ∀ i k, s.slot i = some k →
    ∃ past waker, lastPoll tr i = some (past, waker, .pending) ∧ m.value k = some waker

namespace Registered
variable {tr tr' : List (Event W)} {s s' : Cancellation W} {m : OrderedMap Nat W}

theorem new : Registered [] (Cancellation.new : Cancellation W) .empty where
  represents := ⟨[], new_threaded⟩
  keys := rfl
  indexed := by simp [registered, Cancellation.indexOf, Cancellation.new]
  owned := by simp [Cancellation.slot, Cancellation.new]

/-- The node of a waiter is live in the list, and its waiter is registered. -/
theorem slot_mem (h : Registered tr s m) {i k : Nat} (hk : s.slot i = some k) :
    k ∈ m.keys ∧ i ∈ registered tr := by
  obtain ⟨past, waker, -, hvalue⟩ := h.owned i k hk
  refine ⟨(m.mem_keys k).mpr (by simp [hvalue]), (h.indexed i).mpr ?_⟩
  obtain ⟨wt, hwt, hindex⟩ := Option.bind_eq_some_iff.mp hk
  split at hindex
  · simp [Cancellation.indexOf, hwt, hindex]
  · cases hindex

/-- The wakers in the list, in order, are those of the waiting parties. -/
theorem values_eq (h : Registered tr s m) :
    m.values = (registered tr).filterMap (waiting tr s) := by
  rw [OrderedMap.values, h.keys, List.filterMap_filterMap]
  refine List.filterMap_congr fun i hi => ?_
  cases hk : s.slot i with
  | some k =>
      obtain ⟨past, waker, hlast, hvalue⟩ := h.owned i k hk
      obtain ⟨wt, hwt, hindex⟩ := Option.bind_eq_some_iff.mp hk
      split at hindex
      · rename_i halive
        obtain ⟨index, alive⟩ := wt
        subst halive
        simp [waiting, hwt, hlast, hvalue]
      · cases hindex
  | none =>
      have hindex := (h.indexed i).mp hi
      obtain ⟨k, hk'⟩ := Option.ne_none_iff_exists'.mp hindex
      obtain ⟨wt, hwt, hindex⟩ := Option.bind_eq_some_iff.mp hk'
      obtain ⟨index, alive⟩ := wt
      cases alive with
      | false => simp [waiting, hwt]
      | true =>
          dsimp only at hindex
          simp [Cancellation.slot, hwt, hindex] at hk

/-- An event that neither polls nor touches the waiters keeps everything. -/
theorem keep (h : Registered tr s m) (hreg : registered tr' = registered tr)
    (hlast : lastPoll tr' = lastPoll tr) (hslot : s'.slot = s.slot)
    (hindex : s'.indexOf = s.indexOf) (hlist : s'.handler.waiters = s.handler.waiters) :
    Registered tr' s' m where
  represents := hlist ▸ h.represents
  keys := by rw [hreg, hslot, h.keys]
  indexed := by rw [hreg, hindex]; exact h.indexed
  owned := by rw [hslot, hlast]; exact h.owned

end Registered

/-- A cancel takes every waker out of the list, in order. -/
theorem Represents.wakeAll {waiters : LinkedList W} {m : OrderedMap Nat W}
    (h : Represents waiters m) : waiters.wakeAll = .ok m.values := by
  obtain ⟨free, threaded⟩ := h
  have remaining : Remaining waiters.intoIter.head waiters.intoIter.data m.entries :=
    threaded.remaining
  have inside : m.keys ⊆ List.range waiters.data.length := fun k hk =>
    List.mem_range.mpr ((threaded.places k).mp (List.mem_append_left _ hk))
  have length : m.entries.length ≤ waiters.data.length := by
    have := (List.subperm_of_subset m.nodup inside).length_le
    rwa [List.length_range, ← m.entries_keys, List.length_map] at this
  rw [LinkedList.wakeAll]
  simp only [forLoop_remaining remaining (Nat.lt_succ_of_le length), Option.get_some,
    m.entries_values]

/-! What the operations do to the registrations. -/

theorem eq_of_filterMap_nodup {α β : Type} {f : α → Option β} {l : List α} {i j : α} {k : β}
    (nodup : (l.filterMap f).Nodup) (hi : i ∈ l) (hj : j ∈ l) (hfi : f i = some k)
    (hfj : f j = some k) : i = j := by
  induction l with
  | nil => cases hi
  | cons a l ih =>
      by_cases hai : a = i <;> by_cases haj : a = j
      · exact hai.symm.trans haj
      · subst hai
        have hj' := (List.mem_cons.mp hj).resolve_left (Ne.symm haj)
        rw [List.filterMap_cons_some hfi] at nodup
        exact absurd (List.mem_filterMap.mpr ⟨j, hj', hfj⟩) (List.nodup_cons.mp nodup).1
      · subst haj
        have hi' := (List.mem_cons.mp hi).resolve_left (Ne.symm hai)
        rw [List.filterMap_cons_some hfj] at nodup
        exact absurd (List.mem_filterMap.mpr ⟨i, hi', hfi⟩) (List.nodup_cons.mp nodup).1
      · refine ih ?_ ((List.mem_cons.mp hi).resolve_left (Ne.symm hai))
          ((List.mem_cons.mp hj).resolve_left (Ne.symm haj))
        exact nodup.sublist ((List.sublist_cons_self a l).filterMap f)

theorem filterMap_update_of_not_mem {α β : Type} [DecidableEq α] {f : α → Option β} {l : List α}
    {i : α} (h : i ∉ l) (v : Option β) :
    l.filterMap (Function.update f i v) = l.filterMap f := by
  refine List.filterMap_congr fun j hj => ?_
  have hne : j ≠ i := fun heq => h (heq ▸ hj)
  rw [Function.update_of_ne hne]

theorem filterMap_update_none {f : Nat → Option Nat} {l : List Nat} {i k : Nat} (nodup : l.Nodup)
    (nodup' : (l.filterMap f).Nodup) (hi : i ∈ l) (hf : f i = some k) :
    l.filterMap (Function.update f i none) = (l.filterMap f).erase k := by
  obtain ⟨l₁, l₂, rfl⟩ := List.append_of_mem hi
  have apart := List.nodup_append.mp nodup
  have h₁ : i ∉ l₁ := fun h => apart.2.2 i h i (by simp) rfl
  have h₂ : i ∉ l₂ := (List.nodup_cons.mp apart.2.1).1
  have split : (l₁ ++ i :: l₂).filterMap f = l₁.filterMap f ++ k :: l₂.filterMap f := by
    rw [List.filterMap_append, List.filterMap_cons_some hf]
  rw [split] at nodup' ⊢
  have fresh : k ∉ l₁.filterMap f := fun h =>
    (List.nodup_append.mp nodup').2.2 k h k (by simp) rfl
  rw [List.erase_append_right _ fresh, List.erase_cons_head, List.filterMap_append,
    List.filterMap_cons_none (Function.update_self ..), filterMap_update_of_not_mem h₁,
    filterMap_update_of_not_mem h₂]

namespace Registered
variable {tr : List (Event W)} {s : Cancellation W} {m : OrderedMap Nat W} {i : Nat}
  {wt : Waiter} {waker : W} {waiters : LinkedList W}

/-- Different waiters own different nodes. -/
theorem slot_inj (h : Registered tr s m) {j k : Nat} (hi : s.slot i = some k)
    (hj : s.slot j = some k) : i = j :=
  eq_of_filterMap_nodup (h.keys ▸ m.nodup) (h.slot_mem hi).2 (h.slot_mem hj).2 hi hj

theorem lastPoll_snoc_self (tr : List (Event W)) (i : Nat) (waker : W) (result : Poll)
    (woken : List W) :
    lastPoll (tr ++ [(.poll i waker, ⟨some result, woken⟩)]) i = some (tr, waker, result) :=
  latest_snoc_some (by simp [polled]) tr

theorem lastPoll_snoc_other (tr : List (Event W)) {i j : Nat} (h : i ≠ j) (waker : W)
    (out : Outcome W) : lastPoll (tr ++ [(.poll i waker, out)]) j = lastPoll tr j :=
  latest_snoc_none (by simp [polled, h]) tr

/-- The first poll of a waiter puts it at the end. -/
theorem poll_first (h : Registered tr s m) (hwt : s.waiters[i]? = some wt)
    (halive : wt.alive = true) (hindex : wt.index = none) {k : Nat} (fresh : k ∉ m.keys)
    (hlist : Represents waiters (m.insert k waker fresh)) :
    Registered (tr ++ [(.poll i waker, ⟨some .pending, []⟩)])
      ((s.setList waiters).setWaiter i { wt with index := some k }) (m.insert k waker fresh) := by
  have new : i ∉ registered tr := by
    rw [h.indexed]
    simp [Cancellation.indexOf, hwt, hindex]
  have order : registered (tr ++ [(.poll i waker, ⟨some .pending, []⟩)]) =
      registered tr ++ [i] := by
    rw [registered_snoc]
    exact if_neg new
  have slots : ((s.setList waiters).setWaiter i { wt with index := some k }).slot =
      Function.update s.slot i (some k) := by
    have := Cancellation.slot_setWaiter (s := s.setList waiters) hwt { wt with index := some k }
    rw [if_pos halive] at this
    exact this
  have indices : ((s.setList waiters).setWaiter i { wt with index := some k }).indexOf =
      Function.update s.indexOf i (some k) :=
    Cancellation.indexOf_setWaiter (s := s.setList waiters) hwt { wt with index := some k }
  constructor
  · exact hlist
  · rw [order, slots, List.filterMap_append, filterMap_update_of_not_mem new]
    change m.keys ++ [k] = _
    rw [h.keys]
    simp
  · intro j
    rw [order, indices]
    by_cases hj : j = i
    · simp [hj]
    · rw [Function.update_of_ne hj]
      simpa [hj] using h.indexed j
  · intro j k' hk'
    rw [slots] at hk'
    by_cases hj : j = i
    · subst hj
      obtain rfl : k = k' := by simpa using hk'
      exact ⟨tr, waker, lastPoll_snoc_self tr j waker .pending [], Function.update_self ..⟩
    · rw [Function.update_of_ne hj] at hk'
      obtain ⟨past, waker', hlast, hvalue⟩ := h.owned j k' hk'
      have hne : k' ≠ k := fun heq => fresh (heq ▸ (h.slot_mem hk').1)
      refine ⟨past, waker', by rw [lastPoll_snoc_other tr (Ne.symm hj), hlast], ?_⟩
      exact (Function.update_of_ne hne _ _).trans hvalue

/-- A later poll replaces the waker in the waiter's own node. -/
theorem poll_again (h : Registered tr s m) {k : Nat} (hk : s.slot i = some k)
    (hlist : Represents waiters (m.modify k fun _ => waker)) :
    Registered (tr ++ [(.poll i waker, ⟨some .pending, []⟩)]) (s.setList waiters)
      (m.modify k fun _ => waker) := by
  have order : registered (tr ++ [(.poll i waker, ⟨some .pending, []⟩)]) = registered tr := by
    rw [registered_snoc]
    exact if_pos (h.slot_mem hk).2
  constructor
  · exact hlist
  · rw [order]
    exact h.keys
  · rw [order]
    exact h.indexed
  · intro j k' hk'
    change s.slot j = some k' at hk'
    by_cases hj : j = i
    · subst hj
      obtain rfl := Option.some.inj (hk.symm.trans hk')
      obtain ⟨past, waker', -, hvalue⟩ := h.owned j k hk
      refine ⟨tr, waker, lastPoll_snoc_self tr j waker .pending [], ?_⟩
      simp [OrderedMap.modify, hvalue]
    · obtain ⟨past, waker', hlast, hvalue⟩ := h.owned j k' hk'
      have hne : k' ≠ k := fun heq => hj (h.slot_inj (heq ▸ hk') hk)
      refine ⟨past, waker', by rw [lastPoll_snoc_other tr (Ne.symm hj), hlast], ?_⟩
      exact (Function.update_of_ne hne _ _).trans hvalue

/-- Dropping a waiter removes its own node only. -/
theorem drop (h : Registered tr s m) (hwt : s.waiters[i]? = some wt) {k : Nat}
    (hk : s.slot i = some k) (hlist : Represents waiters (m.erase k)) :
    Registered (tr ++ [(.dropWaiter i, .silent)])
      ((s.setWaiter i { wt with alive := false }).setList waiters) (m.erase k) := by
  have order : registered (tr ++ [(.dropWaiter i, .silent)]) = registered tr := registered_snoc ..
  have last : ∀ j, lastPoll (tr ++ [(.dropWaiter i, .silent)]) j = lastPoll tr j :=
    fun j => latest_snoc_none rfl tr
  have slots : ((s.setWaiter i { wt with alive := false }).setList waiters).slot =
      Function.update s.slot i none := Cancellation.slot_setWaiter hwt { wt with alive := false }
  have indices : ((s.setWaiter i { wt with alive := false }).setList waiters).indexOf =
      s.indexOf := by
    have same : s.indexOf i = wt.index := by simp [Cancellation.indexOf, hwt]
    refine (Cancellation.indexOf_setWaiter hwt { wt with alive := false }).trans ?_
    change Function.update s.indexOf i wt.index = s.indexOf
    rw [← same, Function.update_eq_self]
  constructor
  · exact hlist
  · rw [order, slots,
      filterMap_update_none (registered_nodup tr) (h.keys ▸ m.nodup) (h.slot_mem hk).2 hk,
      ← h.keys]
    rfl
  · rw [order, indices]
    exact h.indexed
  · intro j k' hk'
    rw [slots] at hk'
    by_cases hj : j = i
    · simp [hj] at hk'
    · rw [Function.update_of_ne hj] at hk'
      obtain ⟨past, waker', hlast, hvalue⟩ := h.owned j k' hk'
      have hne : k' ≠ k := fun heq => hj (h.slot_inj (heq ▸ hk') hk)
      refine ⟨past, waker', by rw [last, hlast], ?_⟩
      exact (Function.update_of_ne hne _ _).trans hvalue

end Registered

/-! One operation while the handler is alive and not cancelled. -/

namespace Registered
variable {tr : List (Event W)} {s : Cancellation W} {m : OrderedMap Nat W}

theorem exec_poll (h : Registered tr s m) (halive : s.alive = true)
    (hopen : s.handler.cancelled = false) {i : Nat} {wt : Waiter} (hwt : s.waiters[i]? = some wt)
    (hwa : wt.alive = true) (waker : W) :
    (s.exec (.poll i waker) = .error .capacityOverflow ∧
      s.handler.waiters.data.length = maxLen) ∨
    ∃ s' m', s.exec (.poll i waker) = .ok (s', ⟨some .pending, []⟩) ∧
      s'.handler.cancelled = false ∧
      Registered (tr ++ [(.poll i waker, ⟨some .pending, []⟩)]) s' m' := by
  simp only [Cancellation.exec, hwt, Cancellation.poll, halive, hopen, Bool.not_true,
    Bool.false_eq_true, if_false, bind, Except.bind]
  cases hindex : wt.index with
  | none =>
      rcases h.represents.pushBack waker with ⟨hfull, hlen⟩ | ⟨waiters, k, fresh, hpush, hlist⟩
      · exact .inl ⟨by rw [hfull], hlen⟩
      · rw [hpush]
        exact .inr ⟨_, _, rfl, hopen, h.poll_first hwt hwa hindex fresh hlist⟩
  | some k =>
      have hk : s.slot i = some k := by simp [Cancellation.slot, hwt, hwa, hindex]
      obtain ⟨past, waker', -, hvalue⟩ := h.owned i k hk
      obtain ⟨hget, hlist⟩ := h.represents.getMut k fun _ => waker
      dsimp only
      generalize s.handler.waiters.getMut k (fun _ => waker) = written at hget hlist ⊢
      obtain ⟨waiters, got⟩ := written
      obtain rfl : got = some waker' := hget.trans hvalue
      exact .inr ⟨_, _, rfl, hopen, h.poll_again hk hlist⟩

theorem exec_dropWaiter (h : Registered tr s m) (halive : s.alive = true)
    (hopen : s.handler.cancelled = false) {i : Nat} {wt : Waiter} (hwt : s.waiters[i]? = some wt)
    (hwa : wt.alive = true) :
    ∃ s' m', s.exec (.dropWaiter i) = .ok (s', .silent) ∧ s'.handler.cancelled = false ∧
      Registered (tr ++ [(.dropWaiter i, .silent)]) s' m' := by
  simp only [Cancellation.exec, hwt, Cancellation.dropWaiter, halive, hopen, Bool.not_false,
    Bool.and_self, if_true, bind, Except.bind]
  cases hindex : wt.index with
  | none =>
      refine ⟨_, m, rfl, hopen,
        h.keep (registered_snoc ..) (funext fun j => latest_snoc_none rfl tr) ?_ ?_ rfl⟩
      · rw [Cancellation.slot_setWaiter hwt]
        refine Function.update_eq_self_iff.mpr ?_
        simp [Cancellation.slot, hwt, hindex]
      · rw [Cancellation.indexOf_setWaiter hwt]
        refine Function.update_eq_self_iff.mpr ?_
        simp [Cancellation.indexOf, hwt, hindex]
  | some k =>
      have hk : s.slot i = some k := by simp [Cancellation.slot, hwt, hwa, hindex]
      obtain ⟨waiters, hremove, hlist⟩ := h.represents.remove k
      simp only [hremove]
      exact ⟨_, _, rfl, hopen, hindex ▸ h.drop hwt hk hlist⟩

theorem exec_cancel (h : Registered tr s m) (hopen : s.handler.cancelled = false) :
    s.cancel = .ok ({ s with handler := { cancelled := true, waiters := .new } },
      (registered tr).filterMap (waiting tr s)) := by
  rw [Cancellation.cancel, hopen, h.represents.wakeAll, h.values_eq]
  rfl

/-- What can happen to an open handler: a cancel wakes the waiting parties and
closes it, and every other operation wakes nobody and keeps the registrations. -/
theorem exec (h : Registered tr s m) (halive : s.alive = true)
    (hopen : s.handler.cancelled = false) {op : Op W} (enabled : s.Enabled op) :
    (s.exec op = .error .capacityOverflow ∧ s.handler.waiters.data.length = maxLen) ∨
    ∃ s' out, s.exec op = .ok (s', out) ∧
      (cancels op = true → s'.handler.cancelled = true ∧
        out.woken = (registered tr).filterMap (waiting tr s)) ∧
      (cancels op = false → s'.handler.cancelled = false ∧ out.woken = [] ∧
        ∃ m', Registered (tr ++ [(op, out)]) s' m') := by
  cases op with
  | waiter =>
      refine .inr ⟨_, _, rfl, nofun, fun _ => ⟨hopen, rfl, m, ?_⟩⟩
      exact h.keep (registered_snoc ..) (funext fun j => latest_snoc_none rfl tr)
        s.slot_waiter s.indexOf_waiter rfl
  | cloneWaiter i =>
      refine .inr ⟨_, _, rfl, nofun, fun _ => ⟨hopen, rfl, m, ?_⟩⟩
      exact h.keep (registered_snoc ..) (funext fun j => latest_snoc_none rfl tr)
        s.slot_waiter s.indexOf_waiter rfl
  | cloneCanceller | dropper | dropCanceller =>
      refine .inr ⟨_, _, rfl, nofun, fun _ => ⟨hopen, rfl, m, ?_⟩⟩
      exact h.keep (registered_snoc ..) (funext fun j => latest_snoc_none rfl tr) rfl rfl rfl
  | cancel =>
      have hexec : s.exec .cancel = .ok ({ s with
          handler := { cancelled := true, waiters := .new } },
          { poll := none, woken := (registered tr).filterMap (waiting tr s) }) := by
        simp only [Cancellation.exec, h.exec_cancel hopen, bind, Except.bind]
      exact .inr ⟨_, _, hexec, fun _ => ⟨rfl, rfl⟩, nofun⟩
  | dropDropper =>
      have hexec : s.exec .dropDropper = .ok ({ s with
          handler := { cancelled := true, waiters := .new }, droppers := s.droppers - 1 },
          { poll := none, woken := (registered tr).filterMap (waiting tr s) }) := by
        simp only [Cancellation.exec, h.exec_cancel hopen, bind, Except.bind]
      exact .inr ⟨_, _, hexec, fun _ => ⟨rfl, rfl⟩, nofun⟩
  | poll i waker =>
      obtain ⟨wt, hwt, hwa⟩ := enabled
      rcases h.exec_poll halive hopen hwt hwa waker with hfull | ⟨s', m', hexec, hopen', h'⟩
      · exact .inl hfull
      · exact .inr ⟨s', _, hexec, nofun, fun _ => ⟨hopen', rfl, m', h'⟩⟩
  | dropWaiter i =>
      obtain ⟨wt, hwt, hwa⟩ := enabled
      obtain ⟨s', m', hexec, hopen', h'⟩ := h.exec_dropWaiter halive hopen hwt hwa
      exact .inr ⟨s', _, hexec, nofun, fun _ => ⟨hopen', rfl, m', h'⟩⟩

end Registered

/-- Once a poll would be ready, nobody is woken any more, polls are ready, and it
stays so. -/
theorem Cancellation.exec_closed {s : Cancellation W} (h : s.waiterCancelled = true) {op : Op W}
    (enabled : s.Enabled op) :
    ∃ s' out, s.exec op = .ok (s', out) ∧ s'.waiterCancelled = true ∧
      s'.handler.cancelled = s.handler.cancelled ∧
      (cancels op = true → s.handler.cancelled = true) ∧ out.woken = [] ∧
      ∀ i waker, op = .poll i waker → out.poll = some .ready := by
  have shut : s.alive = false ∨ s.handler.cancelled = true := by
    cases ha : s.alive with
    | false => exact .inl rfl
    | true => simpa [waiterCancelled, ha] using h
  have fewer : ∀ {a b : Nat}, a + b ≤ s.cancellers + s.droppers →
      ({ s with cancellers := a, droppers := b } : Cancellation W).waiterCancelled = true := by
    intro a b hab
    rcases shut with ha | hc
    · simp only [alive, decide_eq_false_iff_not] at ha
      simp only [waiterCancelled, alive, Bool.or_eq_true, Bool.not_eq_true',
        decide_eq_false_iff_not]
      exact .inl (by omega)
    · simp [waiterCancelled, hc]
  have cancelled : 0 < s.cancellers + s.droppers → s.handler.cancelled = true := by
    intro hpos
    refine shut.resolve_left ?_
    simp [alive, hpos]
  cases op with
  | waiter | cloneWaiter i => exact ⟨_, _, rfl, h, rfl, nofun, rfl, nofun⟩
  | cloneCanceller =>
      have hc := cancelled (Nat.add_pos_left enabled _)
      exact ⟨_, _, rfl, by simp [waiterCancelled, hc], rfl, nofun, rfl, nofun⟩
  | dropper =>
      have hpos : 0 < s.cancellers := enabled
      exact ⟨_, _, rfl, fewer (by omega), rfl, nofun, rfl, nofun⟩
  | dropCanceller => exact ⟨_, _, rfl, fewer (by omega), rfl, nofun, rfl, nofun⟩
  | cancel =>
      have hc := cancelled (Nat.add_pos_left enabled _)
      refine ⟨s, ⟨none, []⟩, ?_, h, rfl, fun _ => hc, rfl, nofun⟩
      rw [exec, cancel, hc]
      rfl
  | dropDropper =>
      have hc := cancelled (Nat.add_pos_right _ enabled)
      refine ⟨{ s with droppers := s.droppers - 1 }, ⟨none, []⟩, ?_, fewer (by omega), rfl,
        fun _ => hc, rfl, nofun⟩
      rw [exec, cancel, hc]
      rfl
  | poll i waker =>
      obtain ⟨wt, hwt, -⟩ := enabled
      refine ⟨s, ⟨some .ready, []⟩, ?_, h, rfl, nofun, rfl, fun _ _ _ => rfl⟩
      rcases shut with ha | hc
      · simp [exec, hwt, poll, ha, bind, Except.bind]
      · simp [exec, hwt, poll, hc, bind, Except.bind]
  | dropWaiter i =>
      obtain ⟨wt, hwt, -⟩ := enabled
      refine ⟨s.setWaiter i { wt with alive := false }, .silent, ?_, h, rfl, nofun, rfl, nofun⟩
      have off : (s.alive && !s.handler.cancelled) = false := by
        rcases shut with ha | hc
        · rw [ha, Bool.false_and]
        · rw [hc, Bool.not_true, Bool.and_false]
      simp only [exec, hwt, dropWaiter, off, bind, Except.bind]
      cases wt.index with
      | none => rfl
      | some k => rfl

end Monolake.Cancel
