import Mathlib.Data.List.Nodup
import Monolake.Http.ConnectionReuse
import Monolake.Http.H1Framing

/-!
The persistence handler under the HTTP/1 loop: what the `Connection` header of a
response tells the client is what the loop does after it.
-/
namespace Monolake.Http

universe u
open Foundation

variable {Req B D P Err W E : Type u} {timeout : HttpServerTimeout}

/-- An I/O or payload error, or a write that takes too long. -/
def H1Event.Fault : H1Event Req D P Err W E → Prop
  | .payload _ answer => ∃ err, answer = some (.error err)
  | .sent _ answer => ∃ err, answer = some (.error err)
  | .writeTimedOut _ => True
  | _ => False

/-- The loop came round after the exchange of a request. -/
def H1Loop.wentOn (s : H1Loop P Err E) (n : Nat) : Bool := decide (n < s.number)

/-- Every exchange before the current one is complete, and the last one of a
stopped loop ended without leave to go on. -/
structure Settled (tr : List (H1Event Req D P Err W E)) (s : H1Loop P Err E) : Prop where
  completed : ∀ m < s.number, Completed tr m
  last : s.phase = .stopped → (decodes tr).length ≤ s.number ∨
    (decodes tr).length ≤ s.number + 1 ∧ ∃ result, RespondedWith tr s.number result ∧
      ∀ response, result ≠ .ok (response, true)

section
variable {tr : List (H1Event Req D P Err W E)} {s s' : H1Loop P Err E}
  {e : H1Event Req D P Err W E}

theorem Settled.going (h : Settled tr s) (number : s'.number = s.number)
    (phase : s'.phase ≠ .stopped) : Settled (tr ++ [e]) s' :=
  ⟨fun m hm => (h.completed m (number ▸ hm)).later, fun stopped => absurd stopped phase⟩

/-- The loop stops at the decoder. -/
theorem Settled.undecoded (h : Settled tr s) (tallied : Tallied tr s)
    (phase : s.phase = .decoding) (hd : decodes [e] = []) :
    Settled (tr ++ [e]) (s.enter .stopped) := by
  refine ⟨fun m hm => (h.completed m hm).later, fun _ => .inl ?_⟩
  have count := tallied.current (by simp [phase])
  simp only [H1Loop.count, phase] at count
  rw [decodes_append, hd, List.append_nil, count]
  exact Nat.le_refl _

/-- The loop stops after a response. -/
theorem Settled.answered (h : Settled tr s) (tallied : Tallied tr s)
    (count : s.count = s.number + 1) (phase : s.phase ≠ .stopped) (hd : decodes [e] = [])
    {result : Except Err (Response E × Bool)} (answered : RespondedWith tr s.number result)
    (leave : ∀ response, result ≠ .ok (response, true)) :
    Settled (tr ++ [e]) (s.enter .stopped) := by
  refine ⟨fun m hm => (h.completed m hm).later, fun _ => .inr ⟨?_, result, answered.later, leave⟩⟩
  rw [decodes_append, hd, List.append_nil, tallied.current phase, count]
  exact Nat.le_refl _

theorem Settled.drained (h : Settled tr s) {t : Except P Unit}
    (progressed : Progressed (tr ++ [e]) (s.drained t)) (filled : ∀ err, t ≠ .error err) :
    Settled (tr ++ [e]) (s.drained t) := by
  cases t with
  | error err => exact absurd rfl (filled err)
  | ok _ =>
      refine ⟨fun m hm => ?_, nofun⟩
      rcases Nat.lt_succ_iff_lt_or_eq.mp hm with hm | rfl
      · exact (h.completed m hm).later
      · exact progressed s.number rfl

theorem settled_step (h : Settled tr s) (tallied : Tallied tr s) (progressed : Progressed tr s)
    (clean : ∀ e' ∈ tr ++ [e], ¬ e'.Fault) (step : H1Step timeout s e s') :
    Settled (tr ++ [e]) s' := by
  have next := progressed_step progressed step
  have sound : ¬ e.Fault := clean e (by simp)
  cases step with
  | ask | decoded | handlingFills | handlerPending | handlerReady | send | sendError
  | sendingFills | sendPending | sent => exact h.going rfl (by simp)
  | drainPending phase | replyPending phase => exact h.going rfl (by simp [phase])
  | decodeFailed phase | closed phase | headerTimedOut phase =>
      exact h.undecoded tallied phase rfl
  | sendFailed => exact absurd ⟨_, rfl⟩ sound
  | writeTimedOut => exact absurd trivial sound
  | sentLast phase =>
      simp only [Progressed, phase] at progressed
      obtain ⟨⟨response, answered⟩, -⟩ := progressed
      exact h.answered tallied (by simp [H1Loop.count, phase]) (by simp [phase]) rfl answered
        (by simp)
  | replied phase =>
      simp only [Progressed, phase] at progressed
      obtain ⟨err, answered⟩ := progressed
      exact h.answered tallied (by simp [H1Loop.count, phase]) (by simp [phase]) rfl answered
        (by simp)
  | slotTaken phase =>
      simp only [Progressed, phase] at progressed
      refine h.drained next fun err failed => ?_
      subst failed
      exact clean _ (List.mem_append_left _ (progressed.2.2 _ rfl)) ⟨err, rfl⟩
  | drainReady phase =>
      refine h.drained next fun err failed => ?_
      subst failed
      exact sound ⟨err, rfl⟩

theorem settled_run (h : Run (H1Step timeout) .start tr s) (clean : ∀ e ∈ tr, ¬ e.Fault) :
    Settled tr s := by
  induction h with
  | nil => exact ⟨nofun, nofun⟩
  | snoc run step ih =>
      have before := ih fun e he => clean e (List.mem_append_left _ he)
      exact settled_step before (tallied_run run) (progressed_run run) clean step

/-- An entry that stems from one event only is in the reading of a history when
that event is in the history. -/
theorem mem_filterMap_iff {α β : Type*} {f : α → Option β} {l : List α} {e : α} {b : β}
    (reads : f e = some b) (only : ∀ e', f e' = some b → e' = e) :
    b ∈ l.filterMap f ↔ e ∈ l := by
  rw [List.mem_filterMap]
  constructor
  · rintro ⟨e', he', heq⟩
    exact only e' heq ▸ he'
  · exact fun he => ⟨e, he, reads⟩

theorem mem_results {n : Nat} {result : Except Err (Response E × Bool)} :
    (n, result) ∈ results tr ↔ .handler n (some result) ∈ tr := by
  refine mem_filterMap_iff rfl fun e' heq => ?_
  split at heq <;> cases heq
  rfl

theorem mem_sends {n : Nat} {response : Response E} :
    (n, response) ∈ sends tr ↔ .send n response ∈ tr := by
  refine mem_filterMap_iff rfl fun e' heq => ?_
  split at heq <;> cases heq
  rfl

/-- A request has one response. -/
theorem sends_unique (tallied : Tallied tr s) {n : Nat} {response response' : Response E}
    (h : (n, response) ∈ sends tr) (h' : (n, response') ∈ sends tr) : response = response' := by
  have whole : (sends tr).map Prod.fst <+: List.range (decodes tr).length := by
    have results_prefix : (results tr).map Prod.fst <+: (decodes tr).map Prod.fst :=
      tallied.handled ▸ List.prefix_append ..
    have sends_prefix : sends tr <+: (results tr).map answerTo :=
      tallied.answered ▸ List.prefix_append ..
    have numbers := sends_prefix.map Prod.fst
    rw [List.map_map] at numbers
    exact tallied.numbered ▸ numbers.trans results_prefix
  have nodup : ((sends tr).map Prod.fst).Nodup := whole.sublist.nodup List.nodup_range
  exact (Prod.mk.inj (List.inj_on_of_nodup_map nodup h h' rfl)).2

/-- Of a decoded request whose exchange is over: what the handler returned tells
whether the loop went on. -/
theorem over_result (tallied : Tallied tr s) (settled : Settled tr s) {n : Nat} {request : Req}
    (decoded : (n, request) ∈ decodes tr) (finished : n < s.number ∨ s.phase = .stopped) :
    ∃ result, RespondedWith tr n result ∧
      (s.wentOn n = true ↔ ∃ response, result = .ok (response, true)) := by
  by_cases hn : n < s.number
  · obtain ⟨⟨response, answered⟩, -⟩ := settled.completed n hn
    exact ⟨_, answered, iff_of_true (decide_eq_true hn) ⟨response, rfl⟩⟩
  · have number : n < (decodes tr).length := by
      have mem := List.mem_map_of_mem (f := Prod.fst) decoded
      rw [tallied.numbered] at mem
      exact List.mem_range.mp mem
    rcases settled.last (finished.resolve_left hn) with none | ⟨bound, result, answered, leave⟩
    · omega
    · obtain rfl : n = s.number := by omega
      refine ⟨result, answered, iff_of_false (by simp [H1Loop.wentOn]) ?_⟩
      rintro ⟨response, heq⟩
      exact leave response heq

end

/-- What both sides know after an exchange: `goesOn` is what the loop does. -/
structure Agreement (request : Request B) (given : Except Err (Response E × Bool))
    (goesOn : Bool) (response : Response E) : Prop where
  reply_11 : request.version = .http11 →
    response.parts.headers.getAll "connection" = if goesOn then [] else ["close"]
  reply_10 : request.version = .http10 → ∀ value, given = .ok value →
    response.parts.version = .http10 ∧
      response.parts.headers.getAll "connection" = if goesOn then ["Keep-Alive"] else []
  leave : goesOn = true → (∃ inner, given = .ok (inner, true)) ∧
    isConnKeepalive request.headers request.version = true
  others : ∀ value, given = .ok value → ∀ name, name ≠ "connection" →
    response.parts.headers.getAll name = value.1.parts.headers.getAll name

/-- The reply to what the handler behind gave is in agreement with the loop. -/
theorem agreement_of_persists {request : Request B}
    {resumed : Response E × Bool → Response E × Bool}
    (persists : ∀ given, Persists request given (resumed given))
    (given : Except Err (Response E × Bool)) {goesOn : Bool}
    (goes : goesOn = true ↔ ∃ response, given.map resumed = .ok (response, true)) :
    Agreement request given goesOn (replyTo (given.map resumed)) := by
  cases given with
  | error err =>
      have stops : goesOn = false := by
        refine Bool.eq_false_iff.mpr fun going => ?_
        obtain ⟨_, h⟩ := goes.mp going
        cases h
      subst stops
      exact ⟨fun _ => rfl, nofun, nofun, nofun⟩
  | ok value =>
      have reply := persists value
      have same : goesOn = (resumed value).2 := by
        rw [Bool.eq_iff_iff, goes]
        constructor
        · rintro ⟨response, h⟩
          exact congrArg Prod.snd (Except.ok.inj h)
        · exact fun h => ⟨(resumed value).1, congrArg Except.ok (Prod.ext rfl h)⟩
      subst same
      refine ⟨reply.reply_11, fun hv v hval => ?_, fun going => ?_, fun v hval => ?_⟩
      · exact reply.reply_10 hv
      · rw [reply.cont_eq, Bool.and_eq_true] at going
        exact ⟨⟨value.1, congrArg Except.ok (Prod.ext rfl going.1)⟩, going.2⟩
      · obtain rfl := Except.ok.inj hval
        exact reply.others

/-- With the handler's results those of the persistence handler, and without I/O
or payload errors: the handler behind is asked once, with a version 1.1 request
that has no `Connection` header, and the response to every request whose
exchange is over agrees with what the loop does. -/
theorem connection_agreed {tr : List (H1Event (Request B) D P Err W E)} {s : H1Loop P Err E}
    (inner : Nat → Request B → Except Err (Response E × Bool))
    (h : Run (H1Step timeout) .start tr s) (clean : ∀ e ∈ tr, ¬ e.Fault)
    (handles : ∀ n request result, (n, request) ∈ decodes tr → (n, result) ∈ results tr →
      result = ConnectionReuseHandler.call (inner n) request)
    {n : Nat} {request : Request B} (decoded : (n, request) ∈ decodes tr)
    (version : request.version = .http10 ∨ request.version = .http11)
    (finished : n < s.number ∨ s.phase = .stopped) :
    ∃ seen : Request B, seen.version = .http11 ∧ seen.headers.getAll "connection" = [] ∧
      (∃ resumed : Response E × Bool → Response E × Bool,
        ∀ {m : Type u → Type u} [Monad m] (inner : Request B → m (Response E × Bool)),
          ConnectionReuseHandler.call inner request =
            inner seen >>= fun given => pure (resumed given)) ∧
      ∃ response, (∀ r, (n, r) ∈ sends tr ↔ r = response) ∧
        Agreement request (inner n seen) (s.wentOn n) response := by
  have tallied := tallied_run h
  obtain ⟨resumed, persists, asks⟩ := call_persists (E := E) request version
  obtain ⟨result, answered, goes⟩ := over_result tallied (settled_run h clean) decoded finished
  have sent := mem_sends.mpr answered.2
  have called : result = (inner n request.relayed).map resumed := by
    rw [handles n request result decoded (mem_results.mpr answered.1), asks]
    cases inner n request.relayed <;> rfl
  refine ⟨request.relayed, rfl, HeaderMap.getAll_remove_self .., ⟨resumed, asks⟩,
    replyTo result, fun r => ⟨fun hr => sends_unique tallied hr sent, fun hr => hr ▸ sent⟩, ?_⟩
  rw [called] at goes ⊢
  exact agreement_of_persists persists _ goes

/-- An HTTP/1.0 client asks for keep-alive, the handler behind closes its own
connection but says to go on, and the loop goes on. -/
theorem http10_kept_alive :
    ∃ (tr : List (H1Event (Request Unit) String String String String String))
      (s : H1Loop String String String),
      Run (H1Step ⟨none, none, none⟩) .start tr s ∧ s.wentOn 0 = true ∧
      ∃ response, (∀ r, (0, r) ∈ sends tr ↔ r = response) ∧
        response.parts.version = .http10 ∧
        response.parts.headers.getAll "connection" = ["Keep-Alive"] := by
  let request : Request Unit :=
    ⟨"GET", ⟨none, none, some ⟨"/", none⟩⟩, .http10, [("connection", "keep-alive")], ()⟩
  let given : Response String := ⟨⟨200, .http11, [("connection", "close")]⟩, .fixedNone⟩
  let response : Response String := ⟨⟨200, .http10, [("connection", "Keep-Alive")]⟩, .fixedNone⟩
  let inner : Nat → Request Unit → Except String (Response String × Bool) :=
    fun _ _ => .ok (given, true)
  let tr : List (H1Event (Request Unit) String String String String String) :=
    [.ask 0, .decoded 0 (some (.ok request)), .payload 0 (some (.ok ())),
      .handler 0 (some (.ok (response, true))), .send 0 response, .sent 0 (some (.ok ())),
      .slotTaken 0]
  have run : Run (H1Step ⟨none, none, none⟩) (.start : H1Loop String String String) tr _ :=
    .cons (.ask rfl) <| .cons (.decoded rfl) <| .cons (.handlingFills rfl ⟨rfl, rfl⟩) <|
    .cons (.handlerReady rfl (.inl rfl)) <| .cons (.send rfl) <|
    .cons (.sent rfl (.inr nofun)) <| .cons (.slotTaken rfl) .nil
  have clean : ∀ e ∈ tr, ¬ e.Fault := by
    simp [tr, H1Event.Fault]
  have handles : ∀ n r result, (n, r) ∈ decodes tr → (n, result) ∈ results tr →
      result = ConnectionReuseHandler.call (inner n) r := by
    intro n r result hr hresult
    simp only [tr, decodes, results, List.filterMap, List.mem_singleton, Prod.mk.injEq]
      at hr hresult
    obtain ⟨rfl, rfl⟩ := hr
    have keepalive : isConnKeepalive request.headers .http10 = true := by decide
    rw [hresult.2]
    simp only [ConnectionReuseHandler.call, request, inner, given] at keepalive ⊢
    rw [keepalive]
    rfl
  obtain ⟨seen, -, -, -, response, unique, agreement⟩ :=
    connection_agreed inner run clean handles (List.mem_singleton_self (0, request)) (.inl rfl)
      (.inl Nat.one_pos)
  exact ⟨tr, _, run, rfl, response, unique, agreement.reply_10 rfl _ rfl⟩

end Monolake.Http
