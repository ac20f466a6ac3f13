import Monolake.Foundation.Future
import Monolake.Http.H1Service

/-!
A main future with a companion that is polled along with it. When a main is ready
another takes its place, and in the end the companion is awaited alone; the slot keeps
its result until then. The futures are watched, which shows who was polled when.
-/
namespace Monolake.Http.Util

universe u v w x y
open Foundation

variable {C : Type v} {FMAIN FMAIN2 : Type u} {FACC : Type w} {T : Type x} {R : Type y}

structure AccompanyPair (FMAIN : Type u) (FACC : Type w) (T : Type x) where
  main : FMAIN
  accompany : FACC
  accompanySlot : Option T

structure Accompany (FACC : Type w) (T : Type x) where
  accompany : FACC
  accompanySlot : Option T

namespace AccompanyPair

/-- The companion is polled unless its result is there. -/
def pollAccompany [Future C FACC T] (self : AccompanyPair FMAIN FACC T) (cx : C) :
    AccompanyPair FMAIN FACC T × C :=
  match self.accompanySlot with
  | some _ => (self, cx)
  | none =>
      match Future.poll self.accompany cx with
      | (accompany, cx, some t) => ({ self with accompany, accompanySlot := some t }, cx)
      | (accompany, cx, none) => ({ self with accompany }, cx)

instance [Future C FMAIN R] [Future C FACC T] : Future C (AccompanyPair FMAIN FACC T) R where
  poll self cx :=
    let (self, cx) := self.pollAccompany cx
    let (main, cx, answer) := Future.poll self.main cx
    ({ self with main }, cx, answer)

def new (main : FMAIN) (accompany : FACC) : AccompanyPair FMAIN FACC T :=
  { main, accompany, accompanySlot := none }

def replace (self : AccompanyPair FMAIN FACC T) (main : FMAIN2) : AccompanyPair FMAIN2 FACC T :=
  { main, accompany := self.accompany, accompanySlot := self.accompanySlot }

def intoAccompany (self : AccompanyPair FMAIN FACC T) : Accompany FACC T :=
  { accompany := self.accompany, accompanySlot := self.accompanySlot }

end AccompanyPair

instance [Future C FACC T] : Future C (Accompany FACC T) T where
  poll self cx :=
    match self.accompanySlot with
    | some t => ({ self with accompanySlot := none }, cx, some t)
    | none =>
        let (accompany, cx, answer) := Future.poll self.accompany cx
        ({ self with accompany }, cx, answer)

/-- What the loop of a connection knows of the pair, between two polls. -/
def AccompanyPair.inLoop (self : AccompanyPair FMAIN FACC T) : Http.AccompanyPair T :=
  { accompanySlot := self.accompanySlot, turn := .accompany }

/-- A poll makes the events of the loop: the companion answers if it is polled, and then
the pair is as it is when the main is pending. -/
theorem inLoop_poll [Future C FMAIN R] [Future C FACC T] (pair : AccompanyPair FMAIN FACC T)
    (cx : C) :
    (pair.inLoop.PollsAccompany → (Future.poll pair cx).1.inLoop =
      Http.AccompanyPair.pending (.accompanied (Future.poll pair.accompany cx).2.2)) ∧
    (¬ pair.inLoop.PollsAccompany → (Future.poll pair cx).1.accompany = pair.accompany ∧
      (Future.poll pair cx).1.inLoop = pair.inLoop.pending) := by
  have rest : (Future.poll pair cx).1.inLoop = (pair.pollAccompany cx).1.inLoop := rfl
  have companion : (Future.poll pair cx).1.accompany = (pair.pollAccompany cx).1.accompany := rfl
  rw [rest, companion]
  obtain ⟨main, accompany, slot⟩ := pair
  rw [AccompanyPair.pollAccompany]
  cases slot with
  | some t => exact ⟨fun polls => absurd polls.2 (Option.some_ne_none t), fun _ => ⟨rfl, rfl⟩⟩
  | none =>
      refine ⟨fun _ => ?_, fun polls => absurd ⟨rfl, rfl⟩ polls⟩
      dsimp only
      generalize Future.poll accompany cx = out
      obtain ⟨accompany, cx, answer⟩ := out
      cases answer with
      | some t => rfl
      | none => rfl

/-- The pairs that a companion gets into, with what their polls since the last
`replace` were answered. -/
inductive Paired (C : Type v) [Future C FACC T] (accompany : FACC) :
    ∀ {FMAIN : Type u} {R : Type y},
      AccompanyPair (Watched FMAIN R) (Watched FACC T) T → List (Poll R) → Prop
  | new {FMAIN : Type u} {R : Type y} (main : FMAIN) :
      Paired C accompany (R := R) (.new (.new main) (.new accompany)) []
  | polled {FMAIN : Type u} {R : Type y} [Future C FMAIN R]
      {pair : AccompanyPair (Watched FMAIN R) (Watched FACC T) T} {answers : List (Poll R)}
      (h : Paired C accompany pair answers) (cx : C) :
      Paired C accompany (Future.poll pair cx).1 (answers ++ [(Future.poll pair cx).2.2])
  | replaced {FMAIN FMAIN2 : Type u} {R R2 : Type y}
      {pair : AccompanyPair (Watched FMAIN R) (Watched FACC T) T} {answers : List (Poll R)}
      (h : Paired C accompany pair answers) (main : FMAIN2) :
      Paired C accompany (R := R2) (pair.replace (.new main)) []

/-- The companion is not polled after its result, which is in the slot. -/
structure Kept (accompany : Watched FACC T) (slot : Option T) : Prop where
  once : accompany.Once
  slot_eq : slot.toList = accompany.results

theorem kept_new (accompany : FACC) : Kept (.new accompany : Watched FACC T) none where
  once _ _ _ split := by simp [Watched.new] at split
  slot_eq := rfl

section
variable [Future C FACC T] {accompany : Watched FACC T}

theorem Kept.poll (h : Kept accompany none) (cx : C) :
    Kept (Future.poll accompany cx).1 (Future.poll accompany cx).2.2 := by
  have unready : accompany.results = [] := h.slot_eq.symm
  refine ⟨accompany.poll_once cx unready, ?_⟩
  rw [accompany.poll_results, unready]
  rfl

theorem Kept.pollAccompany {pair : AccompanyPair FMAIN (Watched FACC T) T}
    (h : Kept pair.accompany pair.accompanySlot) (cx : C) :
    Kept (pair.pollAccompany cx).1.accompany (pair.pollAccompany cx).1.accompanySlot ∧
      (pair.pollAccompany cx).1.main = pair.main := by
  obtain ⟨main, accompany, slot⟩ := pair
  rw [AccompanyPair.pollAccompany]
  cases slot with
  | some t => exact ⟨h, rfl⟩
  | none =>
      have polled := Kept.poll h cx
      dsimp only
      generalize Future.poll accompany cx = out at polled ⊢
      obtain ⟨accompany, cx, answer⟩ := out
      cases answer with
      | some t => exact ⟨polled, rfl⟩
      | none => exact ⟨polled, rfl⟩

/-- Whatever phase the companion is ready in, its one result is there in the end. -/
theorem Kept.await {accompany : Accompany (Watched FACC T) T}
    (h : Kept accompany.accompany accompany.accompanySlot) {cxs : List C}
    (polled : cxs ≠ [] ∨ accompany.accompanySlot = none) :
    (pollUntilReady accompany cxs).1.accompany.Once ∧
      (pollUntilReady accompany cxs).2.toList =
        (pollUntilReady accompany cxs).1.accompany.results := by
  obtain ⟨accompany, slot⟩ := accompany
  induction cxs generalizing accompany slot with
  | nil =>
      obtain rfl := polled.resolve_left fun h => h rfl
      exact ⟨h.once, h.slot_eq⟩
  | cons cx cxs ih =>
      cases slot with
      | some t => exact ⟨h.once, h.slot_eq⟩
      | none =>
          have next := Kept.poll h cx
          have alone : Future.poll { accompany, accompanySlot := none : Accompany _ T } cx =
            (⟨(Future.poll accompany cx).1, none⟩, (Future.poll accompany cx).2) := rfl
          rw [pollUntilReady, alone]
          generalize Future.poll accompany cx = out at next ⊢
          obtain ⟨accompany, cx, answer⟩ := out
          cases answer with
          | some t => exact ⟨next.once, next.slot_eq⟩
          | none => exact ih accompany none next (.inr rfl)

/-- A companion of any kind, with any mains and polls in any contexts: it is not polled
again when it was ready, in either phase; the polls of the pair are answered as those of
the main that is in it; and the final `Accompany` gives the one result of the companion
when it has one. -/
theorem companion_handed_over_once {accompany : FACC}
    {pair : AccompanyPair (Watched FMAIN R) (Watched FACC T) T} {answers : List (Poll R)}
    (h : Paired C accompany pair answers) :
    pair.accompany.Once ∧ pair.main.answers = answers ∧
    ∀ (cx : C) (cxs : List C),
      (pollUntilReady pair.intoAccompany (cx :: cxs)).1.accompany.Once ∧
      (pollUntilReady pair.intoAccompany (cx :: cxs)).2.toList =
        (pollUntilReady pair.intoAccompany (cx :: cxs)).1.accompany.results := by
  have kept : Kept pair.accompany pair.accompanySlot ∧ pair.main.answers = answers := by
    induction h with
    | new main => exact ⟨kept_new accompany, rfl⟩
    | @polled _ _ _ pair answers h cx ih =>
        obtain ⟨kept, main⟩ := ih.1.pollAccompany cx
        refine ⟨kept, ?_⟩
        rw [← ih.2, ← main]
        rfl
    | replaced h main ih => exact ⟨ih.1, rfl⟩
  exact ⟨kept.1.once, kept.2, fun cx cxs => kept.1.await (.inl (List.cons_ne_nil cx cxs))⟩

end

/-- Ready after so many polls. -/
structure Countdown (R : Type y) where
  left : Nat
  result : R

instance : Future Unit (Countdown R) R where
  poll self cx :=
    match self.left with
    | 0 => (self, cx, some self.result)
    | left + 1 => ({ self with left }, cx, none)

/-- The companion is ready in the second phase, while its main goes on. -/
theorem ready_in_second_phase :
    ∃ (pair : AccompanyPair (Watched (Countdown String) String) (Watched (Countdown Nat) Nat) Nat)
      (answers : List (Poll String)),
      Paired Unit (⟨1, 7⟩ : Countdown Nat) pair answers ∧ answers = [none, some "b"] ∧
      pair.accompany.answers = [none, some 7] ∧ pair.accompany.Once ∧
      pair.main.answers = answers ∧
      (pollUntilReady pair.intoAccompany [()]).2 = some 7 ∧
      (pollUntilReady pair.intoAccompany [()]).1.accompany.results = [7] := by
  have paired : Paired Unit (⟨1, 7⟩ : Countdown Nat) _ _ :=
    .polled (.polled (.replaced (.polled (.new (⟨0, "a"⟩ : Countdown String)) ())
      (⟨1, "b"⟩ : Countdown String)) ()) ()
  obtain ⟨once, same, final⟩ := companion_handed_over_once paired
  exact ⟨_, _, paired, rfl, rfl, once, same, rfl, (final () []).2.symm⟩

end Monolake.Http.Util
