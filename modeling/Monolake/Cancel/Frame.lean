import Monolake.Cancel.Canceller

/-!
What the operations of the cancel primitive leave alone: the handles are counted
by the operations on handles only, and no waiter comes back to life.
-/
namespace Monolake.Cancel

universe u
variable {W : Type u} {s s' : Cancellation W}

theorem bind_ok {ε : Type} {α β : Type u} {x : Except ε α} {f : α → Except ε β} {b : β}
    (h : (x >>= f) = .ok b) : ∃ a, x = .ok a ∧ f a = .ok b := by
  cases x with
  | error e => cases h
  | ok a => exact ⟨a, rfl, h⟩

def AliveAt (s : Cancellation W) (i : Nat) : Prop :=
  ∃ wt, s.waiters[i]? = some wt ∧ wt.alive = true

theorem cancel_frame {woken : List W} (h : s.cancel = .ok (s', woken)) :
    s'.cancellers = s.cancellers ∧ s'.droppers = s.droppers ∧ s'.waiters = s.waiters := by
  rw [Cancellation.cancel] at h
  split at h
  · cases h
    exact ⟨rfl, rfl, rfl⟩
  · obtain ⟨woken', -, hrest⟩ := bind_ok h
    cases hrest
    exact ⟨rfl, rfl, rfl⟩

theorem poll_frame {i : Nat} {wt : Waiter} {waker : W} {result : Poll}
    (h : s.poll i wt waker = .ok (s', result)) :
    s'.cancellers = s.cancellers ∧ s'.droppers = s.droppers ∧
      (s'.waiters = s.waiters ∨
        ∃ index, s'.waiters = s.waiters.set i { wt with index := index }) := by
  rw [Cancellation.poll] at h
  split at h
  · cases h
    exact ⟨rfl, rfl, .inl rfl⟩
  split at h
  · cases h
    exact ⟨rfl, rfl, .inl rfl⟩
  split at h
  · split at h
    · cases h
    · cases h
      exact ⟨rfl, rfl, .inl rfl⟩
  · obtain ⟨⟨waiters, index⟩, -, hrest⟩ := bind_ok h
    cases hrest
    exact ⟨rfl, rfl, .inr ⟨_, rfl⟩⟩

theorem dropWaiter_frame {i : Nat} {wt : Waiter} (h : s.dropWaiter i wt = .ok s') :
    s'.cancellers = s.cancellers ∧ s'.droppers = s.droppers ∧
      s'.waiters = s.waiters.set i { wt with alive := false } := by
  simp only [Cancellation.dropWaiter] at h
  split at h
  · cases h
    exact ⟨rfl, rfl, rfl⟩
  split at h
  · obtain ⟨⟨waiters, val⟩, -, hrest⟩ := bind_ok h
    cases hrest
    exact ⟨rfl, rfl, rfl⟩
  · cases h
    exact ⟨rfl, rfl, rfl⟩

structure Frame (s : Cancellation W) (op : Op W) (s' : Cancellation W) : Prop where
  lived : s'.alive = true → s.alive = true
  lives : s.alive = true → s'.alive = true ∨ op = .dropDropper ∨
    op = .dropCanceller ∧ s.cancellers + s.droppers = 1
  length : s.waiters.length ≤ s'.waiters.length
  waiters : ∀ i, AliveAt s' i → AliveAt s i ∨ s.waiters.length ≤ i

theorem alive_congr (hc : s'.cancellers = s.cancellers) (hd : s'.droppers = s.droppers) :
    s'.alive = s.alive := by
  rw [Cancellation.alive, Cancellation.alive, hc, hd]

theorem Frame.of_same {op : Op W} (handles : s'.alive = s.alive)
    (length : s.waiters.length ≤ s'.waiters.length)
    (waiters : ∀ i, AliveAt s' i → AliveAt s i ∨ s.waiters.length ≤ i) : Frame s op s' :=
  ⟨fun h => handles ▸ h, fun h => .inl (handles.trans h), length, waiters⟩

/-- A step that replaces one waiter that is alive. -/
theorem Frame.of_set {op : Op W} (handles : s'.alive = s.alive) {i : Nat} {wt wt' : Waiter}
    (hwt : s.waiters[i]? = some wt) (hwa : wt.alive = true)
    (hset : s'.waiters = s.waiters.set i wt') : Frame s op s' := by
  have length : s'.waiters.length = s.waiters.length := by rw [hset, List.length_set]
  refine .of_same handles (Nat.le_of_eq length.symm) fun j h => .inl ?_
  by_cases hj : i = j
  · exact hj ▸ ⟨wt, hwt, hwa⟩
  · rwa [AliveAt, hset, List.getElem?_set_ne hj] at h

theorem Frame.of_waiter {op : Op W} : Frame s op s.waiter := by
  refine .of_same rfl (by simp [Cancellation.waiter]) fun i h => ?_
  by_cases hi : i < s.waiters.length
  · obtain ⟨wt, hwt, hwa⟩ := h
    rw [Cancellation.waiter, List.getElem?_append_left hi] at hwt
    exact .inl ⟨wt, hwt, hwa⟩
  · exact .inr (Nat.le_of_not_lt hi)

theorem step_frame {e : Op W × Outcome W} (hstep : cancelStep s e s') : Frame s e.1 s' := by
  obtain ⟨op, out⟩ := e
  obtain ⟨enabled, hexec⟩ := hstep
  have handles : 0 < s.cancellers + s.droppers → s.alive = true := by simp [Cancellation.alive]
  cases op with
  | waiter | cloneWaiter i =>
      cases hexec
      exact .of_waiter
  | cloneCanceller | dropper =>
      have hpos : 0 < s.cancellers := enabled
      cases hexec
      refine ⟨fun _ => handles (by omega), fun _ => .inl ?_, Nat.le_refl _, fun i => .inl⟩
      simp only [Cancellation.alive, decide_eq_true_eq]
      omega
  | dropCanceller =>
      have hpos : 0 < s.cancellers := enabled
      cases hexec
      refine ⟨fun _ => handles (by omega), fun _ => ?_, Nat.le_refl _, fun i => .inl⟩
      by_cases hlast : s.cancellers + s.droppers = 1
      · exact .inr (.inr ⟨rfl, hlast⟩)
      · refine .inl ?_
        simp only [Cancellation.alive, decide_eq_true_eq]
        omega
  | cancel =>
      obtain ⟨⟨s₁, woken⟩, hcancel, hrest⟩ := bind_ok hexec
      obtain ⟨hc, hd, hw⟩ := cancel_frame hcancel
      cases hrest
      exact .of_same (alive_congr hc hd) (Nat.le_of_eq (congrArg _ hw.symm))
        fun i h => .inl (by rwa [AliveAt, hw] at h)
  | dropDropper =>
      have hpos : 0 < s.droppers := enabled
      obtain ⟨⟨s₁, woken⟩, hcancel, hrest⟩ := bind_ok hexec
      obtain ⟨-, -, hw⟩ := cancel_frame hcancel
      cases hrest
      exact ⟨fun _ => handles (by omega), fun _ => .inr (.inl rfl),
        Nat.le_of_eq (congrArg _ hw.symm), fun i h => .inl (by rwa [AliveAt, hw] at h)⟩
  | poll i waker =>
      obtain ⟨wt, hwt, hwa⟩ := enabled
      simp only [Cancellation.exec, hwt] at hexec
      obtain ⟨⟨s₁, result⟩, hpoll, hrest⟩ := bind_ok hexec
      obtain ⟨hc, hd, hw⟩ := poll_frame hpoll
      cases hrest
      rcases hw with hw | ⟨index, hw⟩
      · exact .of_same (alive_congr hc hd) (Nat.le_of_eq (congrArg _ hw.symm))
          fun j h => .inl (by rwa [AliveAt, hw] at h)
      · exact .of_set (alive_congr hc hd) hwt hwa hw
  | dropWaiter i =>
      obtain ⟨wt, hwt, hwa⟩ := enabled
      simp only [Cancellation.exec, hwt] at hexec
      obtain ⟨s₁, hdrop, hrest⟩ := bind_ok hexec
      obtain ⟨hc, hd, hw⟩ := dropWaiter_frame hdrop
      cases hrest
      exact .of_set (alive_congr hc hd) hwt hwa hw

end Monolake.Cancel
