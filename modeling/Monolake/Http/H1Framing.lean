import Monolake.Http.H1Service

/-!
The framing discipline of an HTTP/1 connection: one response for each decoded
request, in order; no further request before the exchange of the previous one is
complete; and none at all after anything went wrong.
-/
namespace Monolake.Http

universe u
open Foundation

variable {Req D P Err W E : Type u} {timeout : HttpServerTimeout}

/-! One response for each request. -/

namespace H1Loop

/-- The request being handled. -/
def unhandled (s : H1Loop P Err E) : List Nat :=
  match s.phase with
  | .handling _ => [s.number]
  | _ => []

/-- The response whose writing is about to begin. -/
def unsent (s : H1Loop P Err E) : List (Nat × Response E) :=
  match s.phase with
  | .handled result _ => [(s.number, replyTo result)]
  | _ => []

/-- The requests decoded so far, when the loop has not stopped. -/
def count (s : H1Loop P Err E) : Nat :=
  match s.phase with
  | .idle | .decoding => s.number
  | _ => s.number + 1

end H1Loop

def answerTo (entry : Nat × Except Err (Response E × Bool)) : Nat × Response E :=
  (entry.1, replyTo entry.2)

/-- The client gets the response of the handler, or a 500 that closes the connection. -/
def RespondsTo (response : Response E) : Except Err (Response E × Bool) → Prop
  | .ok (given, _) => response = given
  | .error _ => response.parts.status = 500 ∧
      response.parts.headers.getAll "connection" = ["close"]

theorem replyTo_respondsTo (result : Except Err (Response E × Bool)) :
    RespondsTo (replyTo result) result := by
  cases result with
  | ok value => rfl
  | error err => exact ⟨rfl, rfl⟩

structure Tallied (tr : List (H1Event Req D P Err W E)) (s : H1Loop P Err E) : Prop where
  numbered : (decodes tr).map Prod.fst = List.range (decodes tr).length
  current : s.phase ≠ .stopped → (decodes tr).length = s.count
  handled : (decodes tr).map Prod.fst = (results tr).map Prod.fst ++ s.unhandled
  answered : (results tr).map answerTo = sends tr ++ s.unsent

theorem tallied_start : Tallied ([] : List (H1Event Req D P Err W E)) .start :=
  ⟨rfl, fun _ => rfl, rfl, rfl⟩

theorem unhandled_unsent (s : H1Loop P Err E) :
    s.unhandled.length + s.unsent.length ≤ 1 ∧
      (s.phase = .stopped → s.unhandled.length + s.unsent.length = 0) := by
  cases h : s.phase <;> simp [H1Loop.unhandled, H1Loop.unsent, h]

section
variable {tr : List (H1Event Req D P Err W E)} {s s' : H1Loop P Err E}
  {e : H1Event Req D P Err W E}

/-- Events that neither decode, nor return from the handler, nor begin a write. -/
theorem Tallied.quiet (h : Tallied tr s) (hd : decodes [e] = []) (hr : results [e] = [])
    (hs : sends [e] = []) (current : s'.phase ≠ .stopped → s.phase ≠ .stopped ∧ s'.count = s.count)
    (unhandled : s'.unhandled = s.unhandled) (unsent : s'.unsent = s.unsent) :
    Tallied (tr ++ [e]) s' := by
  refine ⟨?_, ?_, ?_, ?_⟩
  · rw [decodes_append, hd, List.append_nil]
    exact h.numbered
  · intro going
    obtain ⟨going', same⟩ := current going
    rw [decodes_append, hd, List.append_nil, same]
    exact h.current going'
  · rw [decodes_append, results_append, hd, hr, List.append_nil, List.append_nil, unhandled]
    exact h.handled
  · rw [results_append, sends_append, hr, hs, List.append_nil, List.append_nil, unsent]
    exact h.answered

theorem Tallied.drained {t : Except P Unit} (h : Tallied tr s) {slot : Option (Except P Unit)}
    (phase : s.phase = .draining slot) (hd : decodes [e] = []) (hr : results [e] = [])
    (hs : sends [e] = []) : Tallied (tr ++ [e]) (s.drained t) := by
  refine h.quiet hd hr hs ?_ ?_ ?_
  · intro going
    cases t with
    | ok _ => exact ⟨by simp [phase], by simp [H1Loop.drained, H1Loop.count, phase]⟩
    | error err => exact absurd rfl going
  · cases t <;> simp [H1Loop.drained, H1Loop.unhandled, phase]
  · cases t <;> simp [H1Loop.drained, H1Loop.unsent, phase]

/-- The response to what the handler returned is sent. -/
theorem Tallied.sending (h : Tallied tr s) {result : Except Err (Response E × Bool)}
    {accFut : AccompanyPair (Except P Unit)} (phase : s.phase = .handled result accFut)
    (count : s'.count = s.number + 1) (unhandled : s'.unhandled = []) (unsent : s'.unsent = []) :
    Tallied (tr ++ [(.send s.number (replyTo result) : H1Event Req D P Err W E)]) s' := by
  have decoded : decodes (tr ++ [(.send s.number (replyTo result) :
      H1Event Req D P Err W E)]) = decodes tr := by simp [decodes]
  have handled := h.handled
  have answered := h.answered
  have current := h.current (by simp [phase])
  simp only [H1Loop.unhandled, H1Loop.unsent, H1Loop.count, phase] at handled answered current
  refine ⟨decoded ▸ h.numbered, fun _ => by rw [decoded, current, count], ?_, ?_⟩
  · rw [decoded, handled, results_append, unhandled]
    simp [results]
  · rw [results_append, sends_append, unsent, List.map_append, answered]
    simp [results, sends]

theorem tallied_step (h : Tallied tr s) (step : H1Step timeout s e s') :
    Tallied (tr ++ [e]) s' := by
  cases step with
  | ask phase =>
      exact h.quiet rfl rfl rfl (by simp [H1Loop.count, phase])
        (by simp [H1Loop.unhandled, phase]) (by simp [H1Loop.unsent, phase])
  | @decoded request phase =>
      have count := h.current (by simp [phase])
      simp only [H1Loop.count, phase] at count
      have new : decodes (tr ++ [(.decoded s.number (some (.ok request)) :
          H1Event Req D P Err W E)]) = decodes tr ++ [(s.number, request)] := decodes_append ..
      refine ⟨?_, fun _ => ?_, ?_, ?_⟩
      · rw [new, List.map_append, h.numbered, List.length_append, List.length_singleton,
          List.range_succ, count]
        rfl
      · rw [new, List.length_append, count]
        rfl
      · have handled := h.handled
        simp only [H1Loop.unhandled, phase, List.append_nil] at handled
        rw [new, List.map_append, handled, results_append]
        simp [results, H1Loop.unhandled]
      · have answered := h.answered
        simp only [H1Loop.unsent, phase, List.append_nil] at answered
        rw [results_append, sends_append, List.map_append, answered]
        simp [results, sends, H1Loop.unsent]
  | decodeFailed phase | closed phase | headerTimedOut phase | sendFailed phase
  | writeTimedOut phase | sentLast phase | replied phase =>
      exact h.quiet rfl rfl rfl (by simp)
        (by simp [H1Loop.unhandled, phase]) (by simp [H1Loop.unsent, phase])
  | handlingFills phase | handlerPending phase | sendingFills phase | sendPending phase
  | sent phase =>
      exact h.quiet rfl rfl rfl (by simp [H1Loop.count, phase])
        (by simp [H1Loop.unhandled, phase]) (by simp [H1Loop.unsent, phase])
  | drainPending phase | replyPending phase =>
      exact h.quiet rfl rfl rfl (fun going => ⟨going, rfl⟩) rfl rfl
  | @handlerReady accFut result phase =>
      have new : results (tr ++ [(.handler s.number (some result) :
          H1Event Req D P Err W E)]) = results tr ++ [(s.number, result)] := results_append ..
      have same : decodes (tr ++ [(.handler s.number (some result) :
          H1Event Req D P Err W E)]) = decodes tr := by simp [decodes]
      refine ⟨same ▸ h.numbered, fun _ => ?_, ?_, ?_⟩
      · rw [same, h.current (by simp [phase])]
        simp [H1Loop.count, phase]
      · rw [same, new, h.handled]
        simp [H1Loop.unhandled, phase]
      · have answered := h.answered
        simp only [H1Loop.unsent, phase, List.append_nil] at answered
        rw [new, List.map_append, answered, sends_append]
        simp [sends, H1Loop.unsent, answerTo]
  | send phase | sendError phase => exact h.sending phase rfl rfl rfl
  | slotTaken phase | drainReady phase => exact h.drained phase rfl rfl rfl

theorem tallied_run (h : Run (H1Step timeout) .start tr s) : Tallied tr s :=
  h.history tallied_start fun _ _ _ _ _ ih step => tallied_step ih step

end

/-! The previous exchange is complete before the decoder is asked again. -/

/-- The handler returned this, and the writing of the response to it was begun. -/
def RespondedWith (tr : List (H1Event Req D P Err W E)) (n : Nat)
    (result : Except Err (Response E × Bool)) : Prop :=
  .handler n (some result) ∈ tr ∧ .send n (replyTo result) ∈ tr

/-- The handler returned with leave to go on, its response is written, and the
payload of the request is filled. -/
def Completed (tr : List (H1Event Req D P Err W E)) (n : Nat) : Prop :=
  (∃ response, RespondedWith tr n (.ok (response, true))) ∧
    .sent n (some (.ok ())) ∈ tr ∧ .payload n (some (.ok ())) ∈ tr

/-- What is in the slot was the answer of the future that fills the payload. -/
def Filled (tr : List (H1Event Req D P Err W E)) (n : Nat)
    (slot : Option (Except P Unit)) : Prop :=
  ∀ t, slot = some t → .payload n (some t) ∈ tr

def Progressed (tr : List (H1Event Req D P Err W E)) (s : H1Loop P Err E) : Prop :=
  match s.phase with
  | .idle => ∀ m, s.number = m + 1 → Completed tr m
  | .decoding => .ask s.number ∈ tr
  | .handling accFut => Filled tr s.number accFut.accompanySlot
  | .handled result accFut =>
      .handler s.number (some result) ∈ tr ∧ Filled tr s.number accFut.accompanySlot
  | .sending shouldCont f =>
      (∃ response, RespondedWith tr s.number (.ok (response, shouldCont))) ∧
        Filled tr s.number f.accompanySlot
  | .draining slot =>
      (∃ response, RespondedWith tr s.number (.ok (response, true))) ∧
        .sent s.number (some (.ok ())) ∈ tr ∧ Filled tr s.number slot
  | .replying => ∃ err, RespondedWith tr s.number (.error err)
  | .stopped => True

section
variable {tr : List (H1Event Req D P Err W E)} {s s' : H1Loop P Err E}
  {e : H1Event Req D P Err W E} {n : Nat} {slot : Option (Except P Unit)}

theorem RespondedWith.later {result : Except Err (Response E × Bool)}
    (h : RespondedWith tr n result) : RespondedWith (tr ++ [e]) n result :=
  ⟨List.mem_append_left _ h.1, List.mem_append_left _ h.2⟩

theorem Completed.later (h : Completed tr n) : Completed (tr ++ [e]) n := by
  obtain ⟨⟨response, answered⟩, sent, filled⟩ := h
  exact ⟨⟨response, answered.later⟩, List.mem_append_left _ sent, List.mem_append_left _ filled⟩

/-- The response begun is the response to what the handler returned. -/
theorem respondedWith_send {result : Except Err (Response E × Bool)}
    (h : .handler n (some result) ∈ tr) :
    RespondedWith (tr ++ [.send n (replyTo result)]) n result :=
  ⟨List.mem_append_left _ h, List.mem_concat_self⟩

theorem Filled.later (h : Filled tr n slot) : Filled (tr ++ [e]) n slot :=
  fun t ht => List.mem_append_left _ (h t ht)

/-- The answer that the slot now holds. -/
theorem filled_answer (tr : List (H1Event Req D P Err W E)) (n : Nat)
    (answer : Poll (Except P Unit)) : Filled (tr ++ [.payload n answer]) n answer := by
  intro t ht
  rw [ht]
  simp

/-- The exchange that ends with the payload is complete. -/
theorem progressed_drained {t : Except P Unit} (h : Progressed tr s) {slot}
    (phase : s.phase = .draining slot) (filled : .payload s.number (some t) ∈ tr ++ [e]) :
    Progressed (tr ++ [e]) (s.drained t) := by
  simp only [Progressed, phase] at h
  obtain ⟨⟨response, answered⟩, sent, -⟩ := h
  cases t with
  | error err => trivial
  | ok _ =>
      intro m hm
      obtain rfl : s.number = m := Nat.succ.inj hm
      exact ⟨⟨response, answered.later⟩, List.mem_append_left _ sent, filled⟩

theorem progressed_start : Progressed ([] : List (H1Event Req D P Err W E)) .start :=
  fun m hm => absurd hm (Nat.succ_ne_zero m).symm

theorem progressed_step (h : Progressed tr s) (step : H1Step timeout s e s') :
    Progressed (tr ++ [e]) s' := by
  cases step with
  | ask phase => exact List.mem_concat_self
  | decoded phase => exact fun t ht => nomatch ht
  | decodeFailed phase | closed phase | headerTimedOut phase | sendFailed phase
  | writeTimedOut phase | sentLast phase | replied phase => trivial
  | handlingFills phase => exact filled_answer tr s.number _
  | handlerPending phase =>
      simp only [Progressed, phase] at h
      exact h.later
  | handlerReady phase =>
      simp only [Progressed, phase] at h
      exact ⟨List.mem_concat_self, h.later⟩
  | send phase =>
      simp only [Progressed, phase] at h
      exact ⟨⟨_, respondedWith_send h.1⟩, h.2.later⟩
  | sendError phase =>
      simp only [Progressed, phase] at h
      exact ⟨_, respondedWith_send h.1⟩
  | sendingFills phase =>
      simp only [Progressed, phase] at h
      obtain ⟨⟨response, answered⟩, -⟩ := h
      exact ⟨⟨response, answered.later⟩, filled_answer tr s.number _⟩
  | sendPending phase =>
      simp only [Progressed, phase] at h
      obtain ⟨⟨response, answered⟩, filled⟩ := h
      exact ⟨⟨response, answered.later⟩, filled.later⟩
  | sent phase =>
      simp only [Progressed, phase] at h
      obtain ⟨⟨response, answered⟩, filled⟩ := h
      exact ⟨⟨response, answered.later⟩,
        List.mem_concat_self, filled.later⟩
  | @slotTaken t phase =>
      have slotted := h
      simp only [Progressed, phase] at slotted
      exact progressed_drained h phase (List.mem_append_left _ (slotted.2.2 t rfl))
  | drainReady phase =>
      exact progressed_drained h phase List.mem_concat_self
  | drainPending phase =>
      simp only [Progressed, phase] at h ⊢
      obtain ⟨⟨response, answered⟩, sent, filled⟩ := h
      exact ⟨⟨response, answered.later⟩, List.mem_append_left _ sent, filled.later⟩
  | replyPending phase =>
      simp only [Progressed, phase] at h ⊢
      obtain ⟨err, answered⟩ := h
      exact ⟨err, answered.later⟩

theorem progressed_run (h : Run (H1Step timeout) .start tr s) : Progressed tr s :=
  h.history progressed_start fun _ _ _ _ _ ih step => progressed_step ih step

end

/-! After a final event there is no way back to the decoder. -/

/-- The exchange that this event belongs to is the last. -/
def H1Event.Final : H1Event Req D P Err W E → Prop
  | .decoded _ item => ∀ request, item ≠ some (.ok request)
  | .headerTimedOut _ | .writeTimedOut _ => True
  | .payload _ answer => ∃ err, answer = some (.error err)
  | .handler _ answer =>
      (∃ err, answer = some (.error err)) ∨ ∃ response, answer = some (.ok (response, false))
  | .sent _ answer => ∃ err, answer = some (.error err)
  | .ask _ | .send .. | .slotTaken _ => False

def Failed (slot : Option (Except P Unit)) : Prop := ∃ err, slot = some (.error err)

def H1Phase.Doomed : H1Phase P Err E → Prop
  | .idle | .decoding => False
  | .handling accFut => Failed accFut.accompanySlot
  | .handled (.ok (_, shouldCont)) accFut => shouldCont = false ∨ Failed accFut.accompanySlot
  | .handled (.error _) _ => True
  | .sending shouldCont f => shouldCont = false ∨ Failed f.accompanySlot
  | .draining slot => Failed slot
  | .replying | .stopped => True

section
variable {s s' : H1Loop P Err E} {e : H1Event Req D P Err W E}

theorem not_failed_none : ¬ Failed (none : Option (Except P Unit)) := by
  rintro ⟨err, h⟩
  cases h

theorem doomed_drained {t : Except P Unit} (h : Failed (some t)) : (s.drained t).phase.Doomed := by
  obtain ⟨err, h⟩ := h
  obtain rfl := Option.some.inj h
  trivial

theorem doomed_of_final (final : e.Final) (step : H1Step timeout s e s') :
    s'.phase.Doomed := by
  cases step with
  | ask | send | sendError | slotTaken => exact final.elim
  | decoded => exact absurd rfl (final _)
  | decodeFailed | closed | headerTimedOut | sendFailed | writeTimedOut | sentLast
  | replied => trivial
  | handlingFills => exact final
  | sendingFills => exact .inr final
  | drainReady => exact doomed_drained final
  | handlerReady =>
      rcases final with ⟨err, h⟩ | ⟨response, h⟩
      · obtain rfl := Option.some.inj h
        trivial
      · obtain rfl := Option.some.inj h
        exact .inl rfl
  | handlerPending => rcases final with ⟨_, h⟩ | ⟨_, h⟩ <;> cases h
  | sendPending | drainPending | replyPending =>
      obtain ⟨_, h⟩ := final
      cases h
  | sent =>
      obtain ⟨_, h⟩ := final
      cases Option.some.inj h

/-- A doomed loop does not ask, and stays doomed. -/
theorem doomed_step (doomed : s.phase.Doomed) (step : H1Step timeout s e s') :
    s'.phase.Doomed ∧ (∀ n, e ≠ .ask n) ∧ decodes [e] = [] := by
  cases step with
  | ask phase | decoded phase | decodeFailed phase | closed phase | headerTimedOut phase =>
      rw [phase] at doomed
      exact doomed.elim
  | @handlingFills accFut _ phase polls =>
      rw [phase] at doomed
      have failed : Failed accFut.accompanySlot := doomed
      exact absurd (polls.2 ▸ failed) not_failed_none
  | handlerPending phase =>
      rw [phase] at doomed
      exact ⟨doomed, nofun, rfl⟩
  | @handlerReady accFut result phase =>
      rw [phase] at doomed
      refine ⟨?_, nofun, rfl⟩
      cases result with
      | ok value => exact .inr doomed
      | error err => trivial
  | send phase =>
      rw [phase] at doomed
      exact ⟨doomed, nofun, rfl⟩
  | sendingFills phase polls =>
      rw [phase] at doomed
      refine ⟨.inl (doomed.resolve_right fun failed => ?_), nofun, rfl⟩
      exact absurd (polls.2 ▸ failed) not_failed_none
  | sendPending phase =>
      rw [phase] at doomed
      exact ⟨doomed, nofun, rfl⟩
  | sendError | sendFailed | writeTimedOut | sentLast | replied => exact ⟨trivial, nofun, rfl⟩
  | sent phase =>
      rw [phase] at doomed
      exact ⟨doomed.resolve_left nofun, nofun, rfl⟩
  | slotTaken phase =>
      rw [phase] at doomed
      exact ⟨doomed_drained doomed, nofun, rfl⟩
  | drainPending phase | drainReady phase =>
      rw [phase] at doomed
      exact absurd doomed not_failed_none
  | replyPending => exact ⟨doomed, nofun, rfl⟩

theorem doomed_run {tr : List (H1Event Req D P Err W E)} (doomed : s.phase.Doomed)
    (h : Run (H1Step timeout) s tr s') :
    s'.phase.Doomed ∧ (∀ n, .ask n ∉ tr) ∧ decodes tr = [] := by
  induction h with
  | nil => exact ⟨doomed, nofun, rfl⟩
  | snoc _ step ih =>
      obtain ⟨before, silent, none⟩ := ih
      obtain ⟨after, quiet, none'⟩ := doomed_step before step
      refine ⟨after, fun n hn => ?_, by rw [decodes_append, none, none']; rfl⟩
      rcases List.mem_append.mp hn with hn | hn
      · exact silent n hn
      · exact quiet n (List.mem_singleton.mp hn).symm

end

/-- At every point of every run of the loop: requests, handler results and
responses correspond one to one in the order of decoding, but for the request
being handled and the response about to be written, and each response is the one
of the handler, or a 500 with `Connection: close` when that failed; the decoder is
asked for the next request when the previous exchange is complete, and never again
after a final event. -/
theorem h1_framing {tr : List (H1Event Req D P Err W E)} {s : H1Loop P Err E}
    (h : Run (H1Step timeout) .start tr s) :
    ((decodes tr).map Prod.fst = List.range (decodes tr).length ∧
      (results tr).map Prod.fst <+: (decodes tr).map Prod.fst ∧
      sends tr <+: (results tr).map answerTo ∧
      (∀ n response, (n, response) ∈ sends tr →
        ∃ result, (n, result) ∈ results tr ∧ RespondsTo response result) ∧
      (decodes tr).length ≤ (sends tr).length + 1 ∧
      (s.phase = .stopped → (sends tr).length = (decodes tr).length)) ∧
    (∀ past n rest, tr = past ++ .ask n :: rest →
      n = (decodes past).length ∧ ∀ m, n = m + 1 → Completed past m) ∧
    (∀ past n item rest, tr = past ++ .decoded n item :: rest → .ask n ∈ past) ∧
    (∀ past e rest, tr = past ++ e :: rest → e.Final →
      (∀ n, .ask n ∉ rest) ∧ decodes rest = []) := by
  refine ⟨?_, ?_, ?_, ?_⟩
  · have t := tallied_run h
    have handled := congrArg List.length t.handled
    have answered := congrArg List.length t.answered
    have open_one := unhandled_unsent s
    simp only [List.length_map, List.length_append] at handled answered
    have written : sends tr <+: (results tr).map answerTo := t.answered ▸ List.prefix_append ..
    refine ⟨t.numbered, t.handled ▸ List.prefix_append .., written, fun n response sent => ?_,
      by omega, fun stopped => ?_⟩
    · obtain ⟨⟨m, result⟩, returned, same⟩ := List.mem_map.mp (written.subset sent)
      obtain ⟨rfl, rfl⟩ := Prod.mk.inj same
      exact ⟨result, returned, replyTo_respondsTo result⟩
    · have none_open := open_one.2 stopped
      omega
  · rintro past n rest rfl
    obtain ⟨b, b', before, step, -⟩ := h.split
    cases step with
    | ask phase =>
        have done := progressed_run before
        have count := (tallied_run before).current (by simp [phase])
        simp only [Progressed, H1Loop.count, phase] at done count
        exact ⟨count.symm, done⟩
  · rintro past n item rest rfl
    obtain ⟨b, b', before, step, -⟩ := h.split
    have asked := progressed_run before
    cases step with
    | decoded phase | decodeFailed phase | closed phase =>
        simp only [Progressed, phase] at asked
        exact asked
  · rintro past e rest rfl final
    obtain ⟨b, b', -, step, after⟩ := h.split
    exact (doomed_run (doomed_of_final final step) after).2

/-- The payload of the first request fails while its response is being written:
the response is written out, and a second request is not decoded. -/
theorem payload_fails_during_write :
    ∃ (tr : List (H1Event String String String String String String))
      (s : H1Loop String String String),
      Run (H1Step ⟨some 75, none, some 5⟩) .start tr s ∧ s.phase = .stopped ∧
      sends tr = [(0, ⟨⟨200, .http11, []⟩, .fixedNone⟩)] ∧
      (sends tr).length = (decodes tr).length := by
  let response : Response String := ⟨⟨200, .http11, []⟩, .fixedNone⟩
  have run : Run (H1Step ⟨some 75, none, some 5⟩) (.start : H1Loop String String String)
      ([.ask 0, .decoded 0 (some (.ok "GET /")), .payload 0 none, .handler 0 none,
        .payload 0 none, .handler 0 (some (.ok (response, true))), .send 0 response,
        .payload 0 (some (.error "eof")), .sent 0 none, .sent 0 (some (.ok ())),
        .slotTaken 0] : List (H1Event String String String String String String)) _ :=
    .cons (.ask rfl) <| .cons (.decoded rfl) <| .cons (.handlingFills rfl ⟨rfl, rfl⟩) <|
    .cons (.handlerPending rfl (.inl rfl)) <| .cons (.handlingFills rfl ⟨rfl, rfl⟩) <|
    .cons (.handlerReady rfl (.inl rfl)) <| .cons (.send rfl) <|
    .cons (.sendingFills rfl ⟨rfl, rfl⟩) <| .cons (.sendPending rfl (.inl rfl)) <|
    .cons (.sent rfl (.inr nofun)) <| .cons (.slotTaken rfl) .nil
  exact ⟨_, _, run, rfl, rfl, (h1_framing run).1.2.2.2.2.2 rfl⟩

end Monolake.Http
