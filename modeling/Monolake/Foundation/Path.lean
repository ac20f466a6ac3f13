import Mathlib.Data.List.Nodup
import Mathlib.Logic.Function.Basic

/-!
Chains threaded through link functions. `Path link p l q` follows the links from
`p` over the places of `l` to `q`; a doubly linked chain is one path forwards and
one path, over the reversed list, backwards. Changing the link of a place that
is not on a path does not change the path.
-/
namespace Monolake.Foundation

universe u
variable {ι : Type u}

def Path (link : ι → ι) : ι → List ι → ι → Prop
  | p, [], q => p = q
  | p, i :: l, q => p = i ∧ Path link (link i) l q

namespace Path
variable {link : ι → ι}

theorem append {p q : ι} (l l' : List ι) :
    Path link p (l ++ l') q ↔ ∃ m, Path link p l m ∧ Path link m l' q := by
  induction l generalizing p with
  | nil => simp [Path]
  | cons i l ih => simp [Path, ih, and_assoc]

/-- A path begins at its first place, or where it ends when it has none. -/
theorem start {p q : ι} {l : List ι} (h : Path link p l q) : p = l.head?.getD q := by
  cases l with
  | nil => exact h
  | cons i l => exact h.1

theorem last {p q i : ι} {l : List ι} (h : Path link p (l ++ [i]) q) : link i = q := by
  obtain ⟨m, -, hi⟩ := (append l [i]).mp h
  exact hi.2

variable [DecidableEq ι]

theorem update {p q i v : ι} {l : List ι} (h : i ∉ l) :
    Path (Function.update link i v) p l q ↔ Path link p l q := by
  induction l generalizing p with
  | nil => rfl
  | cons j l ih =>
      have hij : j ≠ i := fun heq => h (by simp [heq])
      have rest : i ∉ l := fun hi => h (List.mem_cons_of_mem j hi)
      simp only [Path, Function.update_of_ne hij, ih rest]

/-- Relinking the last place of a path moves its end. -/
theorem redirect {p q r i : ι} {l : List ι} (h : Path link p (l ++ [i]) q) (hi : i ∉ l) :
    Path (Function.update link i r) p (l ++ [i]) r := by
  obtain ⟨m, hl, hm, -⟩ := (append l [i]).mp h
  exact (append l [i]).mpr ⟨m, (update hi).mpr hl, hm, Function.update_self ..⟩

end Path

/-- The links `next` from `head` and `prev` from `tail` thread the same places in
opposite orders, and both end in `null`. -/
structure Linked (null : ι) (next prev : ι → ι) (head tail : ι) (l : List ι) : Prop where
  forward : Path next head l null
  backward : Path prev tail l.reverse null

namespace Linked
variable {null : ι} {next prev : ι → ι} {head tail : ι}

theorem reverse {l : List ι} (h : Linked null next prev head tail l) :
    Linked null prev next tail head l.reverse :=
  ⟨h.backward, by simpa using h.forward⟩

theorem tail_eq {l : List ι} (h : Linked null next prev head tail l) :
    tail = l.getLast?.getD null := by
  simpa using h.backward.start

theorem prev_eq {l l' : List ι} {i : ι} (h : Linked null next prev head tail (l ++ i :: l')) :
    prev i = l.getLast?.getD null := by
  have back := h.backward
  rw [List.reverse_append, List.reverse_cons, Path.append] at back
  obtain ⟨m, hm, hrest⟩ := back
  rw [hm.last, hrest.start, List.head?_reverse]

theorem next_eq {l l' : List ι} {i : ι} (h : Linked null next prev head tail (l ++ i :: l')) :
    next i = l'.head?.getD null := by
  obtain ⟨m, -, -, hrest⟩ := (Path.append l (i :: l')).mp h.forward
  exact hrest.start

/-- The first place of an empty chain. -/
theorem singleton {i : ι} (hn : next i = null) (hp : prev i = null) :
    Linked null next prev i i [i] :=
  ⟨⟨rfl, hn⟩, ⟨rfl, hp⟩⟩

variable [DecidableEq ι]

/-- A new place behind the last one. -/
theorem push {l : List ι} {t i : ι} (h : Linked null next prev head tail (l ++ [t]))
    (nodup : (l ++ [t]).Nodup) (hi : i ∉ l ++ [t]) (hn : next i = null) :
    Linked null (Function.update next t i) (Function.update prev i t) head i
      (l ++ [t] ++ [i]) := by
  obtain ⟨-, -, ht⟩ := List.nodup_append.mp nodup
  have fresh : t ∉ l := fun hmem => ht t hmem t (by simp) rfl
  have hti : i ≠ t := fun heq => hi (by simp [heq])
  refine ⟨(Path.append _ _).mpr ⟨i, h.forward.redirect fresh, rfl, ?_⟩, ?_⟩
  · rw [Function.update_of_ne hti]
    exact hn
  · have back : Path prev t (l ++ [t]).reverse null := by
      have := h.tail_eq
      simp only [List.getLast?_append, List.getLast?_singleton, Option.some_or,
        Option.getD_some] at this
      exact this ▸ h.backward
    rw [List.reverse_append, List.reverse_singleton, List.singleton_append]
    refine ⟨rfl, ?_⟩
    rw [Function.update_self]
    exact (Path.update (mt List.mem_reverse.mp hi)).mpr back

end Linked

/-- Taking a place out of a path: the place before it, if there is one, is linked
to the place after it, and otherwise the path begins there. -/
theorem Path.unlink [DecidableEq ι] {link : ι → ι} {null p i : ι} {l l' : List ι}
    (h : Path link p (l ++ i :: l') null) (nodup : (l ++ i :: l').Nodup) :
    match l.getLast? with
    | none => Path link (link i) (l ++ l') null
    | some j => Path (Function.update link j (link i)) p (l ++ l') null := by
  obtain ⟨m, before, -, after⟩ := (Path.append l (i :: l')).mp h
  cases hl : l.getLast? with
  | none =>
      rw [List.getLast?_eq_none_iff] at hl
      subst hl
      exact after
  | some j =>
      obtain ⟨l₀, rfl⟩ := List.getLast?_eq_some_iff.mp hl
      have hj : j ∉ l₀ ∧ j ∉ l' := by
        simp only [List.nodup_append, List.nodup_cons, List.mem_append] at nodup
        refine ⟨fun hmem => ?_, fun hmem => ?_⟩
        · exact nodup.1.2.2 j hmem j (by simp) rfl
        · exact nodup.2.2 j (by simp) j (by simp [hmem]) rfl
      refine (Path.append _ _).mpr ⟨link i, before.redirect hj.1, (Path.update hj.2).mpr after⟩

namespace Linked
variable {null : ι} {next prev : ι → ι} {head tail i : ι} {l l' : List ι} [DecidableEq ι]

theorem unlink_forward (h : Linked null next prev head tail (l ++ i :: l'))
    (nodup : (l ++ i :: l').Nodup) (hnull : null ∉ l) :
    Path (if prev i = null then next else Function.update next (prev i) (next i))
      (if prev i = null then next i else head) (l ++ l') null := by
  have taken := h.forward.unlink nodup
  have hprev := h.prev_eq
  cases hl : l.getLast? with
  | none =>
      rw [hl] at taken hprev
      rw [Option.getD_none] at hprev
      rw [if_pos hprev, if_pos hprev]
      exact taken
  | some j =>
      rw [hl] at taken hprev
      have hj : prev i ≠ null := fun heq =>
        hnull (List.mem_of_getLast? (by rw [hl, ← heq, hprev]; rfl))
      rw [if_neg hj, if_neg hj, hprev]
      exact taken

/-- Taking a place out of a doubly linked chain, by its own two links. -/
theorem unlink (h : Linked null next prev head tail (l ++ i :: l'))
    (nodup : (l ++ i :: l').Nodup) (hnull : null ∉ l ++ i :: l') :
    Linked null
      (if prev i = null then next else Function.update next (prev i) (next i))
      (if next i = null then prev else Function.update prev (next i) (prev i))
      (if prev i = null then next i else head)
      (if next i = null then prev i else tail) (l ++ l') := by
  have split : (l ++ i :: l').reverse = l'.reverse ++ i :: l.reverse := by simp
  refine ⟨h.unlink_forward nodup (fun hmem => hnull (by simp [hmem])), ?_⟩
  have back := h.reverse
  rw [split] at back
  rw [List.reverse_append]
  refine back.unlink_forward ?_ (fun hmem => hnull (by simp [List.mem_reverse.mp hmem]))
  rw [← split]
  exact List.nodup_reverse.mpr nodup

end Linked

end Monolake.Foundation
