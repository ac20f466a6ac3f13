import Monolake.Cancel.Frame
import Monolake.Cancel.Registration
import Monolake.Foundation.Interleave

/-!
Wake-ups over whole runs. While the handler lives, the first cancel wakes exactly
the waiting parties and nothing else ever wakes anybody. A waiter becomes ready
without a wake only when the last handle of an uncancelled handler is dropped as
a plain canceller.
-/
namespace Monolake.Cancel

universe u
open Foundation

variable {W : Type u} {tr : List (Event W)} {s s' : Cancellation W}

/-- What holds of a handler and its history in every run. -/
structure Accounted (tr : List (Event W)) (s : Cancellation W) : Prop where
  accounts : s.waiterCancelled = false → ∃ m, Registered tr s m
  flag : s.handler.cancelled = true ↔ ∃ e ∈ tr, cancels e.1 = true
  quiet : s.handler.cancelled = false → ∀ e ∈ tr, e.2.woken = []
  existing : ∀ i, lastPoll tr i ≠ none → i < s.waiters.length

theorem waiterCancelled_false (h : s.waiterCancelled = false) :
    s.alive = true ∧ s.handler.cancelled = false := by
  simpa [Cancellation.waiterCancelled] using h

theorem Accounted.new : Accounted [] (Cancellation.new : Cancellation W) where
  accounts := fun _ => ⟨_, .new⟩
  flag := by simp [Cancellation.new]
  quiet := by simp
  existing := by simp [lastPoll]

/-- What a step does, by whether polls are ready before it. -/
theorem Accounted.step_cases (h : Accounted tr s) {e : Event W} (hstep : cancelStep s e s') :
    (s.waiterCancelled = true ∧ s'.waiterCancelled = true ∧
      s'.handler.cancelled = s.handler.cancelled ∧
      (cancels e.1 = true → s.handler.cancelled = true) ∧ e.2.woken = [] ∧
      ∀ i waker, e.1 = .poll i waker → e.2.poll = some .ready) ∨
    (s.waiterCancelled = false ∧ cancels e.1 = true ∧ s'.handler.cancelled = true ∧
      e.2.woken = (registered tr).filterMap (waiting tr s)) ∨
    (s.waiterCancelled = false ∧ cancels e.1 = false ∧ s'.handler.cancelled = false ∧
      e.2.woken = [] ∧ ∃ m, Registered (tr ++ [e]) s' m) := by
  obtain ⟨op, out⟩ := e
  obtain ⟨enabled, hexec⟩ := hstep
  cases hclosed : s.waiterCancelled with
  | true =>
      obtain ⟨s₁, out₁, hexec₁, closed⟩ := Cancellation.exec_closed hclosed enabled
      obtain ⟨rfl, rfl⟩ := Prod.mk.inj (Except.ok.inj (hexec₁.symm.trans hexec))
      exact .inl ⟨rfl, closed⟩
  | false =>
      obtain ⟨halive, hopen⟩ := waiterCancelled_false hclosed
      obtain ⟨m, hm⟩ := h.accounts hclosed
      rcases hm.exec halive hopen enabled with ⟨hfull, -⟩ | ⟨s₁, out₁, hexec₁, hcancel, hother⟩
      · cases hfull.symm.trans hexec
      · obtain ⟨rfl, rfl⟩ := Prod.mk.inj (Except.ok.inj (hexec₁.symm.trans hexec))
        cases hc : cancels op with
        | true => exact .inr (.inl ⟨rfl, rfl, hcancel hc⟩)
        | false => exact .inr (.inr ⟨rfl, rfl, hother hc⟩)

theorem Accounted.step (h : Accounted tr s) {e : Event W} (hstep : cancelStep s e s') :
    Accounted (tr ++ [e]) s' := by
  have flag : ∀ b, s.handler.cancelled = b → (s'.handler.cancelled = true ↔
      b = true ∨ cancels e.1 = true) →
      (s'.handler.cancelled = true ↔ ∃ e' ∈ tr ++ [e], cancels e'.1 = true) := by
    intro b hb hiff
    rw [hiff, ← hb, h.flag]
    simp [or_and_right, exists_or]
  have quiet : s.handler.cancelled = false → e.2.woken = [] →
      ∀ e' ∈ tr ++ [e], e'.2.woken = [] := by
    intro hopen hwoken e' he'
    rcases List.mem_append.mp he' with he' | he'
    · exact h.quiet hopen e' he'
    · rw [List.mem_singleton.mp he', hwoken]
  have existing : ∀ i, lastPoll (tr ++ [e]) i ≠ none → i < s'.waiters.length := by
    intro i hi
    refine Nat.lt_of_lt_of_le ?_ (step_frame hstep).length
    cases hp : polled i e with
    | none =>
        rw [lastPoll, latest_snoc_none hp] at hi
        exact h.existing i hi
    | some poll =>
        have enabled := hstep.1
        rw [(polled_some hp).1] at enabled
        obtain ⟨wt, hwt, -⟩ := enabled
        exact (List.getElem?_eq_some_iff.mp hwt).1
  rcases h.step_cases hstep with ⟨-, hclosed, hsame, hcancel, hwoken, -⟩ |
    ⟨hopen, hc, hcancelled, -⟩ | ⟨hopen, hc, hcancelled, hwoken, hm⟩
  · refine ⟨fun hn => absurd (hclosed.symm.trans hn) (by simp), ?_, fun hn => ?_, existing⟩
    · refine flag _ rfl ?_
      rw [hsame]
      exact ⟨.inl, fun hor => hor.elim id hcancel⟩
    · exact quiet (hsame ▸ hn) hwoken
  · refine ⟨fun hn => ?_, ?_, fun hn => ?_, existing⟩
    · rw [(waiterCancelled_false hn).2] at hcancelled
      cases hcancelled
    · exact flag _ rfl (iff_of_true hcancelled (.inr hc))
    · rw [hn] at hcancelled
      cases hcancelled
  · have before := (waiterCancelled_false hopen).2
    refine ⟨fun _ => hm, ?_, fun _ => quiet before hwoken, existing⟩
    refine flag _ rfl (iff_of_false ?_ ?_)
    · simp [hcancelled]
    · simp [before, hc]

theorem accounted_run (h : Run cancelStep .new tr s) : Accounted tr s :=
  h.history .new fun _ _ _ _ _ before hstep => before.step hstep

/-! A handler that stays alive. -/

/-- Every operation that is possible returns, unless the list of wakers would
outgrow a vector. -/
theorem Accounted.returns (h : Accounted tr s) {op : Op W} (enabled : s.Enabled op) :
    (∃ out, s.exec op = .ok out) ∨
      s.exec op = .error .capacityOverflow ∧ s.handler.waiters.data.length = maxLen := by
  cases hclosed : s.waiterCancelled with
  | true =>
      obtain ⟨s', out, hexec, -⟩ := Cancellation.exec_closed hclosed enabled
      exact .inl ⟨_, hexec⟩
  | false =>
      obtain ⟨halive, hopen⟩ := waiterCancelled_false hclosed
      obtain ⟨m, hm⟩ := h.accounts hclosed
      rcases hm.exec halive hopen enabled with hfull | ⟨s', out, hexec, -⟩
      · exact .inr hfull
      · exact .inl ⟨_, hexec⟩

/-- While the handler lives, in every interleaving: no operation fails but by
outgrowing a vector; before the first cancel nobody is woken; the first cancel
wakes the last wakers of the waiting parties, in the order in which these were
registered, which lists each waiting party once; and from then on nobody is woken
and every poll is ready. -/
theorem cancel_wakes_waiting (h : Run cancelStep .new tr s) (halive : s.alive = true) :
    (∀ op, s.Enabled op → (∃ out, s.exec op = .ok out) ∨
      s.exec op = .error .capacityOverflow ∧ s.handler.waiters.data.length = maxLen) ∧
    ∀ past op out rest, tr = past ++ (op, out) :: rest →
      ∃ a b, Run cancelStep .new past a ∧ cancelStep a (op, out) b ∧ Run cancelStep b rest s ∧
        ((∀ e ∈ past, cancels e.1 = false) →
          (cancels op = false → out.woken = []) ∧
          (cancels op = true → out.woken = (registered past).filterMap (waiting past a) ∧
            (registered past).Nodup ∧ ∀ i, waiting past a i ≠ none → i ∈ registered past)) ∧
        ((∃ e ∈ past, cancels e.1 = true) →
          out.woken = [] ∧ ∀ i waker, op = .poll i waker → out.poll = some .ready) := by
  refine ⟨fun op => (accounted_run h).returns, ?_⟩
  rintro past op out rest rfl
  obtain ⟨a, b, hpast, hstep, hrest⟩ := h.split
  have lives : a.alive = true := by
    have back := hrest.monotone (R := fun x y : Cancellation W => y.alive = true → x.alive = true)
      (fun _ => id) (fun _ _ _ hxy hyz hz => hxy (hyz hz)) fun _ _ _ hxy => (step_frame hxy).lived
    exact (step_frame hstep).lived (back halive)
  have before := accounted_run hpast
  refine ⟨a, b, hpast, hstep, hrest, fun none_yet => ?_, fun already => ?_⟩
  · have hopen : a.handler.cancelled = false := by
      refine eq_false_of_ne_true fun hc => ?_
      obtain ⟨e, he, hce⟩ := before.flag.mp hc
      rw [none_yet e he] at hce
      cases hce
    rcases before.step_cases hstep with ⟨hclosed, -⟩ | ⟨-, hc, -, hwoken⟩ | ⟨-, hc, -, hwoken, -⟩
    · simp [Cancellation.waiterCancelled, lives, hopen] at hclosed
    · refine ⟨fun hn => absurd (hc.symm.trans hn) (by simp), fun _ => ⟨hwoken, ?_, fun i => ?_⟩⟩
      · exact registered_nodup past
      · exact waiting_registered
    · exact ⟨fun _ => hwoken, fun hy => absurd (hc.symm.trans hy) (by simp)⟩
  · have hc := before.flag.mpr already
    rcases before.step_cases hstep with ⟨-, -, -, -, hwoken, hready⟩ | ⟨hopen, -⟩ | ⟨hopen, -⟩
    · exact ⟨hwoken, hready⟩
    · rw [(waiterCancelled_false hopen).2] at hc
      cases hc
    · rw [(waiterCancelled_false hopen).2] at hc
      cases hc

/-- Three waiters poll, the first again with another waker, and the second is
dropped: the cancel wakes the other two, the one registered first before. -/
theorem three_waiters_one_dropped :
    ∃ (past : List (Event Nat)) (a b : Cancellation Nat),
      Run cancelStep .new past a ∧ cancelStep a (.cancel, ⟨none, [11, 30]⟩) b ∧
        (registered past).filterMap (waiting past a) = [11, 30] := by
  have run : Run cancelStep (.new : Cancellation Nat)
      ([(.waiter, .silent), (.waiter, .silent), (.waiter, .silent),
        (.poll 0 10, ⟨some .pending, []⟩), (.poll 1 20, ⟨some .pending, []⟩),
        (.poll 2 30, ⟨some .pending, []⟩), (.poll 0 11, ⟨some .pending, []⟩),
        (.dropWaiter 1, .silent)] ++ [(.cancel, ⟨none, [11, 30]⟩)]) _ :=
    .cons ⟨Nat.one_pos, rfl⟩ <| .cons ⟨Nat.one_pos, rfl⟩ <| .cons ⟨Nat.one_pos, rfl⟩ <|
    .cons ⟨⟨_, rfl, rfl⟩, rfl⟩ <| .cons ⟨⟨_, rfl, rfl⟩, rfl⟩ <| .cons ⟨⟨_, rfl, rfl⟩, rfl⟩ <|
    .cons ⟨⟨_, rfl, rfl⟩, rfl⟩ <| .cons ⟨⟨_, rfl, rfl⟩, rfl⟩ <| .cons ⟨Nat.one_pos, rfl⟩ .nil
  obtain ⟨a, b, hpast, hstep, -, first, -⟩ :=
    (cancel_wakes_waiting run (by decide)).2 _ _ _ [] rfl
  exact ⟨_, a, b, hpast, hstep, ((first (by decide)).2 rfl).1.symm⟩

/-! Any number of handlers. -/

/-- Waiter `i` is alive and its last poll, after `past`, left it pending. -/
def PendingPoll (tr : List (Event W)) (s : Cancellation W) (i : Nat) (past : List (Event W))
    (waker : W) : Prop :=
  (∃ wt, s.waiters[i]? = some wt ∧ wt.alive = true) ∧
    lastPoll tr i = some (past, waker, .pending)

/-- The waker was woken by an event after the poll that follows `past`. -/
def WokenSince (tr past : List (Event W)) (waker : W) : Prop :=
  ∃ e ∈ tr.drop (past.length + 1), waker ∈ e.2.woken

/-- A pending waiter whose next poll would be ready has been woken. -/
def NoLostWakeUp (tr : List (Event W)) (s : Cancellation W) : Prop :=
  ∀ i past waker, PendingPoll tr s i past waker → s.waiterCancelled = true →
    WokenSince tr past waker

/-- The operation drops the last handle, a plain canceller, of a handler that is
not cancelled while some waiter is pending. -/
def DropsSilently (tr : List (Event W)) (s : Cancellation W) (e : Event W) : Prop :=
  e.1 = .dropCanceller ∧ s.cancellers + s.droppers = 1 ∧ s.handler.cancelled = false ∧
    ∃ i past waker, PendingPoll tr s i past waker

/-- `Waiter::cancelled` tells what the next poll returns. -/
theorem poll_ready_iff (s : Cancellation W) {i : Nat} {wt : Waiter}
    (hwt : s.waiters[i]? = some wt) (waker : W) :
    (∃ s', s.exec (.poll i waker) = .ok (s', ⟨some .ready, []⟩)) ↔ s.waiterCancelled = true := by
  cases hclosed : s.waiterCancelled with
  | true =>
      have shut : s.poll i wt waker = .ok (s, .ready) := by
        rw [Cancellation.poll]
        cases ha : s.alive with
        | false => rfl
        | true =>
            have hc : s.handler.cancelled = true := by
              simpa [Cancellation.waiterCancelled, ha] using hclosed
            simp [hc]
      refine iff_of_true ⟨s, ?_⟩ rfl
      simp only [Cancellation.exec, hwt, shut, bind, Except.bind]
  | false =>
      obtain ⟨halive, hopen⟩ := waiterCancelled_false hclosed
      refine iff_of_false ?_ (by simp)
      rintro ⟨s', hexec⟩
      simp only [Cancellation.exec, hwt, Cancellation.poll, halive, hopen, Bool.not_true,
        Bool.false_eq_true, if_false, bind, Except.bind] at hexec
      cases hindex : wt.index with
      | none =>
          rw [hindex] at hexec
          cases hpush : s.handler.waiters.pushBack waker with
          | error p => simp [hpush] at hexec
          | ok r => simp [hpush] at hexec
      | some k =>
          rw [hindex] at hexec
          dsimp only at hexec
          generalize s.handler.waiters.getMut k (fun _ => waker) = written at hexec
          obtain ⟨waiters, _ | val⟩ := written
          · simp at hexec
          · simp at hexec

/-- After a step, the waiter that is pending polled in that step or was pending
before. -/
theorem PendingPoll.of_step {e : Event W} {i : Nat} {past : List (Event W)} {waker : W}
    (account : Accounted tr s) (hstep : cancelStep s e s')
    (h : PendingPoll (tr ++ [e]) s' i past waker) :
    e.1 = .poll i waker ∧ e.2.poll = some .pending ∨
      PendingPoll tr s i past waker ∧ past.length < tr.length := by
  obtain ⟨halive, hlast⟩ := h
  cases hp : polled i e with
  | some poll =>
      rw [lastPoll, latest_snoc_some hp] at hlast
      cases hlast
      exact .inl (polled_some hp)
  | none =>
      rw [lastPoll, latest_snoc_none hp] at hlast
      have exists_before := account.existing i (by simp [lastPoll, hlast])
      have alive_before := ((step_frame hstep).waiters i halive).resolve_right (by omega)
      obtain ⟨e', post, htr, -⟩ := latest_eq_some hlast
      refine .inr ⟨⟨alive_before, hlast⟩, ?_⟩
      rw [htr]
      simp

theorem WokenSince.snoc {past : List (Event W)} {waker : W} (h : WokenSince tr past waker)
    (e : Event W) : WokenSince (tr ++ [e]) past waker := by
  obtain ⟨e', he', hw⟩ := h
  refine ⟨e', ?_, hw⟩
  rw [List.drop_append]
  exact List.mem_append_left _ he'

theorem wokenSince_last {past : List (Event W)} {waker : W} {e : Event W}
    (hpast : past.length < tr.length) (h : waker ∈ e.2.woken) :
    WokenSince (tr ++ [e]) past waker := by
  refine ⟨e, ?_, h⟩
  rw [List.drop_append_of_le_length hpast]
  simp

/-- A step that does not drop the last handle silently loses no wake-up. -/
theorem NoLostWakeUp.step {e : Event W} (account : Accounted tr s) (h : NoLostWakeUp tr s)
    (hstep : cancelStep s e s') (loud : ¬ DropsSilently tr s e) :
    NoLostWakeUp (tr ++ [e]) s' := by
  intro i past waker hpending hclosed
  have frame := step_frame hstep
  rcases account.step_cases hstep with ⟨hready, -, -, -, -, hpoll⟩ |
    ⟨hopen, hc, -, hwoken⟩ | ⟨hopen, hc, hcancelled, hwoken, -⟩
  · rcases hpending.of_step account hstep with ⟨hop, hout⟩ | ⟨before, -⟩
    · rw [hpoll i waker hop] at hout
      cases hout
    · exact (h i past waker before hready).snoc e
  · rcases hpending.of_step account hstep with ⟨hop, -⟩ | ⟨before, hlen⟩
    · rw [hop] at hc
      cases hc
    · refine wokenSince_last hlen ?_
      obtain ⟨⟨wt, hwt, hwa⟩, hlast⟩ := before
      rw [hwoken, List.mem_filterMap]
      refine ⟨i, pending_registered hlast, ?_⟩
      obtain ⟨index, alive⟩ := wt
      subst hwa
      simp [waiting, hwt, hlast]
  · obtain ⟨halive, hnot⟩ := waiterCancelled_false hopen
    have dead : s'.alive = false := by
      simpa [Cancellation.waiterCancelled, hcancelled] using hclosed
    rcases frame.lives halive with hlives | hdrop | ⟨hdrop, hlast⟩
    · rw [dead] at hlives
      cases hlives
    · rw [hdrop] at hc
      cases hc
    · rcases hpending.of_step account hstep with ⟨hop, -⟩ | ⟨before, -⟩
      · rw [hdrop] at hop
        cases hop
      · exact absurd ⟨hdrop, hlast, hnot, i, past, waker, before⟩ loud

/-- Such a step loses the wake-up of whoever is pending. -/
theorem DropsSilently.loses {e : Event W} (account : Accounted tr s) (hstep : cancelStep s e s')
    (h : DropsSilently tr s e) : ¬ NoLostWakeUp (tr ++ [e]) s' := by
  obtain ⟨op, out⟩ := e
  obtain ⟨rfl, hlast, hopen, i, past, waker, halive, hpoll⟩ := h
  intro noLost
  have hexec := hstep.2
  cases hexec
  have still : lastPoll (tr ++ [(.dropCanceller, Outcome.silent)]) i =
      some (past, waker, .pending) := by
    rw [lastPoll, latest_snoc_none rfl]
    exact hpoll
  have dead :
      ({ s with cancellers := s.cancellers - 1 } : Cancellation W).waiterCancelled = true := by
    have hpos : 0 < s.cancellers := hstep.1
    simp only [Cancellation.waiterCancelled, Cancellation.alive, Bool.or_eq_true,
      Bool.not_eq_true', decide_eq_false_iff_not]
    exact .inl (by omega)
  obtain ⟨e, he, hw⟩ := noLost i past waker ⟨halive, still⟩ dead
  rcases List.mem_append.mp (List.mem_of_mem_drop he) with he | he
  · rw [account.quiet hopen e he] at hw
    cases hw
  · rw [List.mem_singleton.mp he] at hw
    cases hw

/-- In every run over any number of handlers: no state reached has lost a
wake-up, exactly when no step drops the last handle of an uncancelled handler as
a plain canceller while a live waiter of it is pending. -/
theorem no_lost_wakeup_iff {tr : List (Tagged (Event W))} {all : List (Cancellation W)}
    (h : Run (interleave cancelStep .new) [] tr all) :
    (∀ past rest mid, tr = past ++ rest → Run (interleave cancelStep .new) [] past mid →
      ∀ i s, mid[i]? = some s → NoLostWakeUp (labelsOf i past) s) ↔
    ∀ past i e rest mid mid' s, tr = past ++ .on i e :: rest →
      Run (interleave cancelStep .new) [] past mid →
      interleave cancelStep .new mid (.on i e) mid' → mid[i]? = some s →
        ¬ DropsSilently (labelsOf i past) s e := by
  have start : NoLostWakeUp [] (Cancellation.new : Cancellation W) := by
    intro i past waker hpending
    cases hpending.2
  have accounts : ∀ {past : List (Tagged (Event W))} {mid : List (Cancellation W)},
      Run (interleave cancelStep .new) [] past mid →
        ∀ i s, mid[i]? = some s → Accounted (labelsOf i past) s := by
    intro past mid hmid
    exact interleave_history (A := fun _ _ _ => True) .new
      (fun _ _ _ _ before hstep _ => before.step hstep) hmid
      fun _ _ _ _ _ _ _ _ _ _ _ => trivial
  constructor
  · rintro noLost past i e rest mid mid' s rfl hmid hstep hs drops
    have step_taken := hstep
    obtain ⟨s₀, s', hs₀, hcancel, rfl⟩ := hstep
    obtain rfl := Option.some.inj (hs₀.symm.trans hs)
    have bound := (List.getElem?_eq_some_iff.mp hs).1
    refine drops.loses (accounts hmid i s₀ hs) hcancel ?_
    have after := noLost (past ++ [.on i e]) rest _ (by simp) (.snoc hmid step_taken) i s'
      (List.getElem?_set_self bound)
    rwa [labelsOf_on_self] at after
  · rintro loud past rest mid rfl hmid i s hs
    have both := interleave_history (I := fun own s => Accounted own s ∧ NoLostWakeUp own s)
      (A := fun own s e => ¬ DropsSilently own s e) ⟨.new, start⟩
      (fun _ _ _ _ before hstep hloud =>
        ⟨before.1.step hstep, before.2.step before.1 hstep hloud⟩) hmid
      fun past' i e rest' mid mid' s htr =>
        loud past' i e (rest' ++ rest) mid mid' s (by rw [htr]; simp)
    exact (both i s hs).2

/-- Two handlers: one is cancelled and then dropped, the dropper of the other
goes out of scope. -/
theorem cancelled_before_drop_wakes :
    ∃ (tr : List (Tagged (Event Nat))) (all : List (Cancellation Nat)),
      Run (interleave cancelStep .new) [] tr all ∧
      ∀ i s, all[i]? = some s → NoLostWakeUp (labelsOf i tr) s := by
  let tr : List (Tagged (Event Nat)) :=
    [.create, .on 0 (.waiter, .silent), .create, .on 1 (.waiter, .silent),
      .on 0 (.poll 0 10, ⟨some .pending, []⟩), .on 1 (.dropper, .silent),
      .on 1 (.poll 0 20, ⟨some .pending, []⟩), .on 0 (.cancel, ⟨none, [10]⟩),
      .on 1 (.dropDropper, ⟨none, [20]⟩), .on 0 (.cloneCanceller, .silent)]
  have run : Run (interleave cancelStep (.new : Cancellation Nat)) [] tr _ :=
    .cons rfl <| .cons ⟨_, _, rfl, ⟨Nat.one_pos, rfl⟩, rfl⟩ <| .cons rfl <|
    .cons ⟨_, _, rfl, ⟨Nat.one_pos, rfl⟩, rfl⟩ <| .cons ⟨_, _, rfl, ⟨⟨_, rfl, rfl⟩, rfl⟩, rfl⟩ <|
    .cons ⟨_, _, rfl, ⟨Nat.one_pos, rfl⟩, rfl⟩ <| .cons ⟨_, _, rfl, ⟨⟨_, rfl, rfl⟩, rfl⟩, rfl⟩ <|
    .cons ⟨_, _, rfl, ⟨Nat.one_pos, rfl⟩, rfl⟩ <| .cons ⟨_, _, rfl, ⟨Nat.one_pos, rfl⟩, rfl⟩ <|
    .cons ⟨_, _, rfl, ⟨Nat.one_pos, rfl⟩, rfl⟩ .nil
  refine ⟨tr, _, run, (no_lost_wakeup_iff run).mpr ?_ tr [] _ (by simp) run⟩
  rintro past i e rest mid mid' s htr - - - ⟨hdrop, -⟩
  have hmem : Tagged.on i e ∈ tr := by simp [htr]
  obtain ⟨op, out⟩ := e
  obtain rfl : op = .dropCanceller := hdrop
  simp [tr] at hmem

/-- The only canceller goes out of scope while the waiter is pending: the next
poll would be ready, and nobody was woken. -/
theorem dropped_canceller_wakes_nobody :
    ∃ (tr : List (Tagged (Event Nat))) (s : Cancellation Nat),
      Run (interleave cancelStep .new) [] tr [s] ∧ ¬ NoLostWakeUp (labelsOf 0 tr) s := by
  refine ⟨[.create, .on 0 (.waiter, .silent), .on 0 (.poll 0 10, ⟨some .pending, []⟩),
    .on 0 (.dropCanceller, .silent)], _, .cons rfl <|
    .cons ⟨_, _, rfl, ⟨Nat.one_pos, rfl⟩, rfl⟩ <| .cons ⟨_, _, rfl, ⟨⟨_, rfl, rfl⟩, rfl⟩, rfl⟩ <|
    .cons ⟨_, _, rfl, ⟨Nat.one_pos, rfl⟩, rfl⟩ .nil, fun noLost => ?_⟩
  obtain ⟨e, he, hw⟩ := noLost 0 [(.waiter, .silent)] 10 ⟨⟨_, rfl, rfl⟩, rfl⟩ rfl
  obtain rfl : e = (.dropCanceller, .silent) := by simpa [labelsOf] using he
  cases hw

end Monolake.Cancel
