import Monolake.Common.Selection
import Monolake.Http.Address
import Monolake.Thrift.Proxy

/-!
The service for the connections of clients that speak TTHeader, in front of the proxy handler
that all of them share. The loop of a connection looks for data, decodes a request, hands it
to the handler and writes the response, one after the other. Nothing drops a call of the
handler here.
-/
namespace Monolake.Thrift

universe v
open Foundation Common
variable {E : Type} {D : Type v}

inductive Endpoint where
  | socket (ip : Http.IpAddr) (port : UInt16)
  | unix (path : ByteArray)

structure Upstream where
  endpoint : Endpoint
  weight : UInt16

instance : IntoWeightedEndpoint Upstream Endpoint where
  intoWeightedEndpoint up := (up.endpoint, up.weight)

structure RouteConfig where
  loadBalancer : LoadBalanceStrategy
  upstreams : List Upstream

inductive UnifiedL4Addr where
  | tcp (ip : Http.IpAddr) (port : UInt16)
  | unix (path : ByteArray)

/-- The key of the connector. -/
def Endpoint.key : Endpoint → UnifiedL4Addr
  | .socket ip port => .tcp ip port
  | .unix path => .unix path

/-- How long, in nanoseconds. -/
structure ThriftServerTimeout where
  keepaliveTimeout : Option Nat
  messageTimeout : Option Nat

/-- Where the loop of `TtheaderCoreService::call` is. -/
inductive TtheaderLoop where
  | peeking
  | decoding
  | handling (req : Nat)
  | replying (resp : Nat)
  | ended

/-- The top of the loop. -/
def TtheaderLoop.next (timeout : ThriftServerTimeout) : TtheaderLoop :=
  if timeout.keepaliveTimeout.isSome then .peeking else .decoding

/-- What `codec.peek_data()` under its timeout comes to. -/
inductive Peeked (E : Type) where
  | data
  | closed
  | ioError (e : E)
  | elapsed

/-- What `codec.next()` under its timeout comes to, when that is no request. -/
inductive Undecoded (E : Type) where
  | decodeError (e : E)
  | eof
  | elapsed

structure TtheaderServer (E : Type) (D : Type v) where
  conns : Nat → Option TtheaderLoop
  connector : ProxyHandler UnifiedL4Addr E
  endpoints : LoadBalancer Endpoint D

/-- `RouteConfig::proxy_handler`; `none` when it panics. -/
def RouteConfig.proxyHandler (rand : Rand UInt16 D) (config : RouteConfig) :
    Option (Except LoadBalanceError (TtheaderServer E D)) :=
  (LoadBalancer.tryFromUpstreams rand config.loadBalancer config.upstreams).map fun built =>
    built.map fun endpoints => { conns := fun _ => none, connector := .start, endpoints }

inductive TtheaderEvent (E : Type) where
  | accepted (c : Nat)
  | peeked (c : Nat) (outcome : Peeked E)
  | undecoded (c : Nat) (outcome : Undecoded E)
  /-- A request is decoded, and the call of the handler has this number. -/
  | requested (c req : Nat)
  /-- The calls of the handler go on. -/
  | proxied (e : ProxyEvent UnifiedL4Addr E)
  | handled (c : Nat)
  | replied (c resp : Nat) (result : Except E Unit)

/-- What a call does after it was made, if its future is not dropped. -/
def ProxyEvent.isOwn {K : Type} : ProxyEvent K E → Bool
  | .called _ _ | .futureDropped _ => false
  | _ => true

/-- The call whose request the event begins to write to a connection. -/
def ProxyEvent.written {K : Type} : ProxyEvent K E → Option Nat
  | .wrote req => some req
  | _ => none

namespace TtheaderServer

def enter (s : TtheaderServer E D) (c : Nat) (loop : TtheaderLoop) : TtheaderServer E D :=
  { s with conns := Function.update s.conns c (some loop) }

end TtheaderServer

inductive TtheaderStep (timeout : ThriftServerTimeout) (rand : Rand UInt16 D) (unexpectedEof : E)
    (s : TtheaderServer E D) : TtheaderEvent E → TtheaderServer E D → Prop
  | accepted {c} (fresh : s.conns c = none) :
      TtheaderStep timeout rand unexpectedEof s (.accepted c) (s.enter c (.next timeout))
  | peeked {c} (at_ : s.conns c = some .peeking) :
      TtheaderStep timeout rand unexpectedEof s (.peeked c .data) (s.enter c .decoding)
  | peekFailed {c outcome} (at_ : s.conns c = some .peeking) (failed : outcome ≠ .data) :
      TtheaderStep timeout rand unexpectedEof s (.peeked c outcome) (s.enter c .ended)
  | undecoded {c outcome} (at_ : s.conns c = some .decoding)
      (timed : outcome = .elapsed → timeout.messageTimeout.isSome) :
      TtheaderStep timeout rand unexpectedEof s (.undecoded c outcome) (s.enter c .ended)
  | requested {c req draw endpoint endpoints connector} (at_ : s.conns c = some .decoding)
      (selected : s.endpoints.select rand draw = some (endpoint, endpoints))
      (call : ProxyStep unexpectedEof s.connector (.called req endpoint.value.key) connector) :
      TtheaderStep timeout rand unexpectedEof s (.requested c req)
        ({ s with connector, endpoints }.enter c (.handling req))
  | proxied {e connector} (own : e.isOwn) (call : ProxyStep unexpectedEof s.connector e connector) :
      TtheaderStep timeout rand unexpectedEof s (.proxied e) { s with connector }
  | handled {c req resp} (at_ : s.conns c = some (.handling req))
      (returned : s.connector.calls req = some (.returned (.ok resp))) :
      TtheaderStep timeout rand unexpectedEof s (.handled c) (s.enter c (.replying resp))
  | handleFailed {c req e} (at_ : s.conns c = some (.handling req))
      (returned : s.connector.calls req = some (.returned (.error e))) :
      TtheaderStep timeout rand unexpectedEof s (.handled c) (s.enter c .ended)
  | replied {c resp} (at_ : s.conns c = some (.replying resp)) :
      TtheaderStep timeout rand unexpectedEof s (.replied c resp (.ok ()))
        (s.enter c (.next timeout))
  | replyFailed {c resp e} (at_ : s.conns c = some (.replying resp)) :
      TtheaderStep timeout rand unexpectedEof s (.replied c resp (.error e)) (s.enter c .ended)

/-! What a client sees. -/

/-- A request and a response are known by the call that was made for the request. -/
inductive Message where
  | request (req : Nat)
  | response (req : Nat)

/-- The requests decoded from a connection and the responses written to it. -/
def conversation (c : Nat) (tr : List (TtheaderEvent E)) : List Message :=
  tr.filterMap fun
    | .requested c' req => if c' = c then some (.request req) else none
    | .replied c' resp (.ok ()) => if c' = c then some (.response resp) else none
    | _ => none

def requests (tr : List (TtheaderEvent E)) : List Nat :=
  tr.filterMap fun
    | .requested _ req => some req
    | _ => none

/-- The calls that have begun to write their requests upstream, once for each time. -/
def written (tr : List (TtheaderEvent E)) : List Nat :=
  tr.filterMap fun
    | .proxied e => e.written
    | _ => none

/-- Requests, each followed by its own response. -/
def exchanges (reqs : List Nat) : List Message :=
  reqs.flatMap fun req => [.request req, .response req]

theorem exchanges_snoc (reqs : List Nat) (req : Nat) :
    exchanges (reqs ++ [req]) = exchanges reqs ++ [.request req] ++ [.response req] := by
  simp [exchanges]

/-- One request after the other is answered, and the last one may not be. -/
def Conversation (talk : List Message) : Prop :=
  ∃ reqs rest, talk = exchanges reqs ++ rest ∧ (rest = [] ∨ ∃ req, rest = [.request req])

/-- The conversation so far, as the loop knows it. -/
def TtheaderLoop.Serves (talk : List Message) : TtheaderLoop → Prop
  | .peeking | .decoding => ∃ reqs, talk = exchanges reqs
  | .handling req | .replying req => ∃ reqs, talk = exchanges reqs ++ [.request req]
  | .ended => Conversation talk

theorem TtheaderLoop.Serves.conversation {talk : List Message} {loop : TtheaderLoop}
    (h : loop.Serves talk) : Conversation talk := by
  cases loop with
  | peeking | decoding =>
      obtain ⟨reqs, talked⟩ := h
      exact ⟨reqs, [], by rw [talked, List.append_nil], .inl rfl⟩
  | handling req | replying req =>
      obtain ⟨reqs, talked⟩ := h
      exact ⟨reqs, _, talked, .inr ⟨req, rfl⟩⟩
  | ended => exact h

theorem TtheaderLoop.Serves.next (timeout : ThriftServerTimeout) {talk : List Message}
    (h : ∃ reqs, talk = exchanges reqs) : (TtheaderLoop.next timeout).Serves talk := by
  rw [TtheaderLoop.next]
  split <;> exact h

section
variable {c : Nat} {tr : List (TtheaderEvent E)}

/-- What is appended to a conversation by an event. -/
theorem conversation_snoc (e : TtheaderEvent E) :
    conversation c (tr ++ [e]) = conversation c tr ++ conversation c [e] :=
  List.filterMap_append

theorem requests_snoc (e : TtheaderEvent E) :
    requests (tr ++ [e]) = requests tr ++ requests [e] :=
  List.filterMap_append

theorem written_snoc (e : TtheaderEvent E) : written (tr ++ [e]) = written tr ++ written [e] :=
  List.filterMap_append

theorem written_proxied (e : ProxyEvent UnifiedL4Addr E) :
    written [.proxied e] = e.written.toList := by
  cases e <;> rfl

end

/-! The connections to the upstreams. -/

section
variable {K : Type} {P : K → Prop} {unexpectedEof : E} {s s' : ProxyHandler K E}
  {e : ProxyEvent K E}

/-- Where a call has its connection to, or wants it to. -/
def SendRequest.To (P : K → Prop) : SendRequest K E → Prop
  | .connecting key => P key
  | .sending io _ | .receiving io => P io.key
  | .returned _ | .dropped => True

structure Keyed (P : K → Prop) (s : ProxyHandler K E) : Prop where
  pool : ∀ io ∈ s.pool, P io.key
  calls : ∀ i call, s.calls i = some call → call.To P

theorem Keyed.enter (h : Keyed P s) {i : Nat} {call : SendRequest K E} (key : call.To P) :
    Keyed P (s.enter i call) :=
  ⟨h.pool, every_update h.calls key⟩

theorem Keyed.release (h : Keyed P s) {io : Reuse K} (key : P io.key) : Keyed P (s.release io) := by
  rw [ProxyHandler.release]
  split
  · refine ⟨fun other hmem => ?_, h.calls⟩
    rcases List.mem_append.mp hmem with hmem | hmem
    · exact h.pool other hmem
    · rwa [List.mem_singleton.mp hmem]
  · exact h

theorem Keyed.eraseIdx (h : Keyed P s) (p : Nat) : Keyed P { s with pool := s.pool.eraseIdx p } :=
  ⟨fun io hio => h.pool io (List.mem_of_mem_eraseIdx hio), h.calls⟩

/-- Only a new call brings a new key. -/
theorem Keyed.step (h : Keyed P s) (step : ProxyStep unexpectedEof s e s')
    (called : ∀ i key, e = .called i key → P key) : Keyed P s' := by
  cases step with
  | called fresh => exact h.enter (called _ _ rfl)
  | connectedNew at_ =>
      have key := h.calls _ _ at_
      exact h.enter key
  | connectedPooled at_ idle =>
      have key := h.calls _ _ at_
      exact (h.eraseIdx _).enter key
  | connectFailed | droppedConnecting => exact h.enter trivial
  | wrote at_ | sent at_ =>
      have key := h.calls _ _ at_
      exact h.enter key
  | sendFailed at_ | receiveFailed at_ | ended at_ | received at_ _
  | droppedSending at_ | droppedReceiving at_ =>
      have key := h.calls _ _ at_
      refine (h.release ?_).enter trivial
      exact key
  | evicted => exact h.eraseIdx _

@[simp] theorem release_calls (io : Reuse K) : (s.release io).calls = s.calls := by
  rw [ProxyHandler.release]
  split <;> rfl

/-- Every event but the dropping of an idle connection puts one call somewhere. -/
theorem ProxyStep.calls_eq (step : ProxyStep unexpectedEof s e s') :
    s'.calls = s.calls ∨ ∃ i call, s'.calls = Function.update s.calls i (some call) ∧
      (s.calls i = none → ∃ key, e = .called i key) := by
  have entered : ∀ (m : ProxyHandler K E) i call call', m.calls = s.calls →
      s.calls i = some call → ∃ j call, (m.enter i call').calls =
        Function.update s.calls j (some call) ∧ (s.calls j = none → ∃ key, e = .called j key) := by
    intro m i call call' same at_
    refine ⟨i, call', by rw [← same]; rfl, fun none => ?_⟩
    cases at_.symm.trans none
  cases step with
  | called fresh => exact .inr ⟨_, _, rfl, fun _ => ⟨_, rfl⟩⟩
  | connectedNew at_ | connectedPooled at_ _ | connectFailed at_ | wrote at_ | sent at_
  | droppedConnecting at_ =>
      exact .inr (entered _ _ _ _ rfl at_)
  | sendFailed at_ | receiveFailed at_ | ended at_ | received at_ _ | droppedSending at_
  | droppedReceiving at_ =>
      exact .inr (entered _ _ _ _ (release_calls _) at_)
  | evicted => exact .inl rfl

theorem ProxyStep.calls_kept (step : ProxyStep unexpectedEof s e s') {i : Nat}
    (made : s.calls i ≠ none) : s'.calls i ≠ none := by
  rcases step.calls_eq with same | ⟨j, call, calls, -⟩
  · rwa [same]
  · rw [calls, Function.update_apply]
    split
    · exact Option.some_ne_none _
    · exact made

/-- Only a call makes a call. -/
theorem ProxyStep.calls_made (step : ProxyStep unexpectedEof s e s') {i : Nat}
    (made : s'.calls i ≠ none) : s.calls i ≠ none ∨ ∃ key, e = .called i key := by
  rcases step.calls_eq with same | ⟨j, call, calls, fresh⟩
  · exact .inl (same ▸ made)
  · by_cases hij : i = j
    · subst hij
      by_cases none : s.calls i = none
      · exact .inr (fresh none)
      · exact .inl none
    · rw [calls, Function.update_of_ne hij] at made
      exact .inl made

end

/-! The requests that go upstream. -/

section
variable {K : Type} {unexpectedEof : E} {s s' : ProxyHandler K E} {e : ProxyEvent K E}
  {calls : List Nat}

/-- Whether the call has written of its request. Of a call that has failed or was dropped
nothing is known. -/
def SendRequest.Wrote (wrote : Prop) : SendRequest K E → Prop
  | .connecting _ | .sending _ false => ¬ wrote
  | .sending _ true | .receiving _ | .returned (.ok _) => wrote
  | .returned (.error _) | .dropped => True

/-- These are the calls that have written, each of them once. -/
structure Wrote (calls : List Nat) (s : ProxyHandler K E) : Prop where
  nodup : calls.Nodup
  made : ∀ i ∈ calls, s.calls i ≠ none
  wrote : ∀ i call, s.calls i = some call → call.Wrote (i ∈ calls)

theorem made_enter {i j : Nat} {call : SendRequest K E} (made : s.calls j ≠ none ∨ j = i) :
    (s.enter i call).calls j ≠ none := by
  simp only [ProxyHandler.enter, Function.update_apply]
  split
  · exact Option.some_ne_none _
  · rename_i hji
    exact made.resolve_right hji

theorem Wrote.enter (h : Wrote calls s) {i : Nat} {call : SendRequest K E}
    (wrote : call.Wrote (i ∈ calls)) : Wrote calls (s.enter i call) :=
  ⟨h.nodup, fun j hj => made_enter (.inl (h.made j hj)), every_update h.wrote wrote⟩

theorem Wrote.release (h : Wrote calls s) (io : Reuse K) : Wrote calls (s.release io) := by
  rw [ProxyHandler.release]
  split
  · exact ⟨h.nodup, h.made, h.wrote⟩
  · exact h

theorem Wrote.eraseIdx (h : Wrote calls s) (p : Nat) :
    Wrote calls { s with pool := s.pool.eraseIdx p } :=
  ⟨h.nodup, h.made, h.wrote⟩

theorem Wrote.write (h : Wrote calls s) {i : Nat} {io : Reuse K}
    (at_ : s.calls i = some (.sending io false)) (io' : Reuse K) :
    Wrote (calls ++ [i]) (s.enter i (.sending io' true)) := by
  have unwritten : i ∉ calls := h.wrote i _ at_
  constructor
  case nodup =>
    exact h.nodup.append (List.nodup_singleton i) fun j hj hji =>
      unwritten (List.mem_singleton.mp hji ▸ hj)
  case made =>
    intro j hj
    exact made_enter ((List.mem_append.mp hj).imp (h.made j) List.mem_singleton.mp)
  case wrote =>
    intro j call hcall
    simp only [ProxyHandler.enter, Function.update_apply] at hcall
    split at hcall
    · rename_i hji
      cases hcall
      exact List.mem_append_right _ (List.mem_singleton.mpr hji)
    · rename_i hji
      have same : (j ∈ calls ++ [i]) = (j ∈ calls) := by simp [hji]
      rw [same]
      exact h.wrote j call hcall

theorem Wrote.step (h : Wrote calls s) (step : ProxyStep unexpectedEof s e s') :
    Wrote (calls ++ e.written.toList) s' := by
  cases step
  case wrote at_ => exact h.write at_ _
  all_goals
    change Wrote (calls ++ []) _
    rw [List.append_nil]
  case called i key fresh => exact h.enter fun hi => h.made i hi fresh
  case connectedNew at_ =>
    have wrote := h.wrote _ _ at_
    exact h.enter wrote
  case connectedPooled at_ idle =>
    have wrote := h.wrote _ _ at_
    exact (h.eraseIdx _).enter wrote
  case connectFailed | droppedConnecting => exact h.enter trivial
  case sent at_ =>
    have wrote := h.wrote _ _ at_
    exact h.enter wrote
  case received at_ answer =>
    have wrote := h.wrote _ _ at_
    exact (h.release _).enter wrote
  case sendFailed | receiveFailed | ended | droppedSending | droppedReceiving =>
    exact (h.release _).enter trivial
  case evicted => exact h.eraseIdx _

end

/-! Runs of the server. -/

/-- What holds of the server and of what its clients have seen. -/
structure Faithful (rand : Rand UInt16 D) (config : RouteConfig) (tr : List (TtheaderEvent E))
    (s : TtheaderServer E D) : Prop where
  tidy : Tidy s.connector
  keyed : Keyed (· ∈ (Common.endpoints config.upstreams).map Endpoint.key) s.connector
  balancer : s.endpoints.Sound rand (Common.endpoints config.upstreams)
  called : ∀ req ∈ requests tr, s.connector.calls req ≠ none
  nodup : (requests tr).Nodup
  absent : ∀ c, s.conns c = none → conversation c tr = []
  serves : ∀ c loop, s.conns c = some loop → loop.Serves (conversation c tr)

namespace Faithful
variable {rand : Rand UInt16 D} {config : RouteConfig} {timeout : ThriftServerTimeout}
  {unexpectedEof : E} {tr : List (TtheaderEvent E)} {s : TtheaderServer E D}

theorem start (reliable : rand.Reliable) (built : config.proxyHandler rand = some (.ok s)) :
    Faithful rand config [] s := by
  obtain ⟨out, hout, ok⟩ := Option.map_eq_some_iff.mp built
  cases out with
  | error e => cases ok
  | ok endpoints =>
      cases ok
      have keyed : Keyed (· ∈ (Common.endpoints config.upstreams).map Endpoint.key)
          (.start : ProxyHandler UnifiedL4Addr E) := ⟨nofun, nofun⟩
      exact ⟨.start, keyed, .built reliable hout, nofun, .nil, fun _ _ => rfl, nofun⟩

/-- An event of one connection. -/
theorem entered (h : Faithful rand config tr s) {s' : TtheaderServer E D}
    (same : s'.conns = s.conns) (c : Nat) (loop : TtheaderLoop) (e : TtheaderEvent E)
    (other : ∀ c', c' ≠ c → conversation c' [e] = [])
    (serves : loop.Serves (conversation c tr ++ conversation c [e])) :
    (∀ c', (s'.enter c loop).conns c' = none → conversation c' (tr ++ [e]) = []) ∧
      ∀ c' loop', (s'.enter c loop).conns c' = some loop' →
        loop'.Serves (conversation c' (tr ++ [e])) := by
  have elsewhere : ∀ c', c' ≠ c → conversation c' (tr ++ [e]) = conversation c' tr := by
    intro c' hc
    rw [conversation_snoc, other c' hc, List.append_nil]
  constructor
  · intro c' none
    simp only [TtheaderServer.enter, same, Function.update_apply] at none
    split at none
    · cases none
    · rename_i hc
      rw [elsewhere c' hc]
      exact h.absent c' none
  · intro c' loop' entered
    simp only [TtheaderServer.enter, same, Function.update_apply] at entered
    split at entered
    · rename_i hc
      cases entered
      rw [hc, conversation_snoc]
      exact serves
    · rename_i hc
      rw [elsewhere c' hc]
      exact h.serves c' loop' entered

/-- An event of one connection that leaves the handler as it is. -/
theorem enter (h : Faithful rand config tr s) {c : Nat} {loop : TtheaderLoop}
    {e : TtheaderEvent E} (unrequested : requests [e] = [])
    (other : ∀ c', c' ≠ c → conversation c' [e] = [])
    (serves : loop.Serves (conversation c tr ++ conversation c [e])) :
    Faithful rand config (tr ++ [e]) (s.enter c loop) := by
  have same : requests (tr ++ [e]) = requests tr := by
    rw [requests_snoc, unrequested, List.append_nil]
  obtain ⟨absent, serves⟩ := h.entered rfl c loop e other serves
  exact ⟨h.tidy, h.keyed, h.balancer, same ▸ h.called, same ▸ h.nodup, absent, serves⟩

/-- An event that nobody sees. -/
theorem enter_silent (h : Faithful rand config tr s) {c : Nat} {loop : TtheaderLoop}
    {e : TtheaderEvent E} (unrequested : requests [e] = [])
    (silent : ∀ c', conversation c' [e] = []) (serves : loop.Serves (conversation c tr)) :
    Faithful rand config (tr ++ [e]) (s.enter c loop) := by
  refine h.enter unrequested (fun c' _ => silent c') ?_
  rwa [silent c, List.append_nil]

theorem step {e : TtheaderEvent E} {s' : TtheaderServer E D} (h : Faithful rand config tr s)
    (reliable : rand.Reliable) (step : TtheaderStep timeout rand unexpectedEof s e s') :
    Faithful rand config (tr ++ [e]) s' := by
  cases step with
  | accepted fresh =>
      refine h.enter_silent rfl (fun _ => rfl) (.next timeout ⟨[], h.absent _ fresh⟩)
  | peeked at_ =>
      have serves := h.serves _ _ at_
      exact h.enter_silent rfl (fun _ => rfl) serves
  | peekFailed at_ failed =>
      exact h.enter_silent rfl (fun _ => rfl) (h.serves _ _ at_).conversation
  | undecoded at_ timed =>
      exact h.enter_silent rfl (fun _ => rfl) (h.serves _ _ at_).conversation
  | @requested c req draw endpoint endpoints connector at_ selected call =>
      obtain ⟨out, next, hselect, sound, on⟩ := h.balancer.select reliable draw
      obtain ⟨rfl, rfl⟩ : out = endpoint ∧ next = endpoints := by simpa [hselect] using selected
      have fresh : s.connector.calls req = none := by
        cases call with
        | called fresh => exact fresh
      have made : connector.calls req ≠ none := by
        cases call with
        | called => exact made_enter (.inr rfl)
      obtain ⟨reqs, talked⟩ := h.serves _ _ at_
      have entered : ({ s with connector, endpoints := next } : TtheaderServer E D).conns =
          s.conns := rfl
      obtain ⟨absent, serves⟩ := h.entered entered c (.handling req) (.requested c req)
        (fun c' hc => by simp [conversation, Ne.symm hc])
        ⟨reqs, by rw [talked]; simp [conversation]⟩
      refine ⟨h.tidy.step call (by rintro i ⟨⟩), h.keyed.step call ?_, sound, ?_, ?_,
        absent, serves⟩
      · rintro i key ⟨rfl, rfl⟩
        exact List.mem_map_of_mem (List.mem_of_getElem? on)
      · intro req' hmem
        rw [requests_snoc] at hmem
        rcases List.mem_append.mp hmem with hmem | hmem
        · exact call.calls_kept (h.called req' hmem)
        · rwa [List.mem_singleton.mp hmem]
      · rw [requests_snoc]
        exact h.nodup.append (List.nodup_singleton req) fun req' hmem hreq =>
          h.called req' hmem (List.mem_singleton.mp hreq ▸ fresh)
  | @proxied e connector own call =>
      have unseen : ∀ c, conversation c (tr ++ [.proxied e]) = conversation c tr := fun c => by
        rw [conversation_snoc]
        exact List.append_nil _
      have same : requests (tr ++ [.proxied e]) = requests tr := by
        rw [requests_snoc]
        exact List.append_nil _
      refine ⟨h.tidy.step call ?_, h.keyed.step call ?_, h.balancer, ?_, same ▸ h.nodup, ?_, ?_⟩
      · rintro i rfl
        cases own
      · rintro i key rfl
        cases own
      · exact fun req hmem => call.calls_kept (h.called req (same ▸ hmem))
      · exact fun c none => (unseen c).trans (h.absent c none)
      · exact fun c loop at_ => (unseen c).symm ▸ h.serves c loop at_
  | @handled c req resp at_ returned =>
      obtain rfl : resp = req := h.tidy.calls req _ returned resp rfl
      have serves := h.serves _ _ at_
      exact h.enter_silent rfl (fun _ => rfl) serves
  | handleFailed at_ returned =>
      exact h.enter_silent rfl (fun _ => rfl) (h.serves _ _ at_).conversation
  | @replied c resp at_ =>
      obtain ⟨reqs, talked⟩ := h.serves _ _ at_
      refine h.enter rfl (fun c' hc => ?_) (.next timeout ⟨reqs ++ [resp], ?_⟩)
      · simp [conversation, Ne.symm hc]
      · rw [talked, exchanges_snoc]
        simp [conversation]
  | replyFailed at_ =>
      exact h.enter_silent rfl (fun _ => rfl) (h.serves _ _ at_).conversation

end Faithful

/-- What holds of the requests that have gone upstream. -/
structure Forwarded (tr : List (TtheaderEvent E)) (s : TtheaderServer E D) : Prop where
  wrote : Wrote (written tr) s.connector
  requested : ∀ req, s.connector.calls req ≠ none → req ∈ requests tr
  replying : ∀ c req, s.conns c = some (.replying req) → req ∈ written tr
  answered : ∀ c req, .response req ∈ conversation c tr → req ∈ written tr

namespace Forwarded
variable {rand : Rand UInt16 D} {config : RouteConfig} {timeout : ThriftServerTimeout}
  {unexpectedEof : E} {tr : List (TtheaderEvent E)} {s : TtheaderServer E D}

theorem start (built : config.proxyHandler rand = some (.ok s)) : Forwarded [] s := by
  obtain ⟨out, hout, ok⟩ := Option.map_eq_some_iff.mp built
  cases out with
  | error e => cases ok
  | ok endpoints =>
      cases ok
      exact ⟨⟨.nil, nofun, nofun⟩, fun _ made => absurd rfl made, nofun, nofun⟩

theorem snoc (h : Forwarded tr s) {e : TtheaderEvent E} {s' : TtheaderServer E D}
    (wrote : Wrote (written tr ++ written [e]) s'.connector)
    (requested : ∀ req, s'.connector.calls req ≠ none →
      s.connector.calls req ≠ none ∨ req ∈ requests [e])
    (replying : ∀ c req, s'.conns c = some (.replying req) → req ∈ written tr)
    (answered : ∀ c req, .response req ∈ conversation c [e] → req ∈ written tr) :
    Forwarded (tr ++ [e]) s' := by
  have before : ∀ req ∈ written tr, req ∈ written (tr ++ [e]) := fun req hreq => by
    rw [written_snoc]
    exact List.mem_append_left _ hreq
  constructor
  case wrote => rwa [written_snoc]
  case requested =>
    intro req made
    rw [requests_snoc, List.mem_append]
    exact (requested req made).imp_left (h.requested req)
  case replying => exact fun c req hc => before req (replying c req hc)
  case answered =>
    intro c req hreq
    rw [conversation_snoc, List.mem_append] at hreq
    exact before req (hreq.elim (h.answered c req) (answered c req))

theorem replying_enter (h : Forwarded tr s) {s' : TtheaderServer E D} (same : s'.conns = s.conns)
    {c : Nat} {loop : TtheaderLoop} (own : ∀ req, loop = .replying req → req ∈ written tr) :
    ∀ c' req, (s'.enter c loop).conns c' = some (.replying req) → req ∈ written tr := by
  intro c' req hc
  simp only [TtheaderServer.enter, same, Function.update_apply] at hc
  split at hc
  · exact own req (Option.some.inj hc)
  · exact h.replying c' req hc

/-- An event of one connection that leaves the handler as it is. -/
theorem enter (h : Forwarded tr s) {c : Nat} {loop : TtheaderLoop} {e : TtheaderEvent E}
    (unwritten : written [e] = []) (own : ∀ req, loop = .replying req → req ∈ written tr)
    (answered : ∀ c req, .response req ∈ conversation c [e] → req ∈ written tr) :
    Forwarded (tr ++ [e]) (s.enter c loop) := by
  refine h.snoc ?_ (fun _ => .inl) (h.replying_enter rfl own) answered
  rw [unwritten, List.append_nil]
  exact h.wrote

theorem next_not_replying {req : Nat} : TtheaderLoop.next timeout ≠ .replying req := by
  rw [TtheaderLoop.next]
  split <;> exact TtheaderLoop.noConfusion

/-- The handler answers for the request that it was given, by `tidy`. -/
theorem step {e : TtheaderEvent E} {s' : TtheaderServer E D} (h : Forwarded tr s)
    (tidy : Tidy s.connector) (step : TtheaderStep timeout rand unexpectedEof s e s') :
    Forwarded (tr ++ [e]) s' := by
  cases step with
  | accepted => exact h.enter rfl (fun _ next => absurd next next_not_replying) nofun
  | peeked | peekFailed | undecoded | handleFailed | replyFailed => exact h.enter rfl nofun nofun
  | @requested c req draw endpoint endpoints connector at_ selected call =>
      have wrote := h.wrote.step call
      refine h.snoc wrote (fun req' made => ?_) (h.replying_enter rfl nofun) ?_
      · refine (call.calls_made made).imp_right ?_
        rintro ⟨key, hcalled⟩
        cases hcalled
        exact List.mem_singleton.mpr rfl
      · intro c' req' hmem
        by_cases hc : c = c' <;> simp [conversation, hc] at hmem
  | @proxied e connector own call =>
      refine h.snoc ?_ (fun req made => ?_) h.replying nofun
      · rw [written_proxied]
        exact h.wrote.step call
      · refine .inl ((call.calls_made made).resolve_right ?_)
        rintro ⟨key, rfl⟩
        cases own
  | @handled c req resp at_ returned =>
      obtain rfl : resp = req := tidy.calls req _ returned resp rfl
      have wrote : resp ∈ written tr := h.wrote.wrote resp _ returned
      refine h.enter rfl (fun req replying => ?_) nofun
      obtain rfl := TtheaderLoop.replying.inj replying
      exact wrote
  | @replied c resp at_ =>
      refine h.enter rfl (fun _ next => absurd next next_not_replying) fun c' req hmem => ?_
      have own : req = resp := by
        by_cases hc : c = c'
        · simpa [conversation, hc] using hmem
        · simp [conversation, hc] at hmem
      exact own ▸ h.replying c resp at_

end Forwarded

/-- Any number of clients, whose requests share the handler and its pool: each of them gets
the responses to its own requests, one after the other; no call is made for two requests;
requests go upstream at most once, only those that were decoded, and all that are answered;
and the connections that the pool keeps go to the configured upstreams and are owed nothing.
No selection of an upstream panics. -/
theorem conversations_in_order {rand : Rand UInt16 D} (reliable : rand.Reliable)
    {config : RouteConfig} {server : TtheaderServer E D}
    (built : config.proxyHandler rand = some (.ok server)) {timeout : ThriftServerTimeout}
    {unexpectedEof : E} {tr : List (TtheaderEvent E)} {s : TtheaderServer E D}
    (run : Run (TtheaderStep timeout rand unexpectedEof) server tr s) :
    (∀ c, Conversation (conversation c tr)) ∧ (requests tr).Nodup ∧
      ((written tr).Nodup ∧ (∀ req ∈ written tr, req ∈ requests tr) ∧
        ∀ c req, .response req ∈ conversation c tr → req ∈ written tr) ∧
      (∀ io ∈ s.connector.pool, io.unread = [] ∧
        io.key ∈ (Common.endpoints config.upstreams).map Endpoint.key) ∧
      ∀ draw, (s.endpoints.select rand draw).isSome := by
  obtain ⟨faithful, forwarded⟩ : Faithful rand config tr s ∧ Forwarded tr s :=
    run.history (I := fun tr s => Faithful rand config tr s ∧ Forwarded tr s)
      ⟨.start reliable built, .start built⟩ fun _ _ _ _ _ before step =>
        ⟨before.1.step reliable step, before.2.step before.1.tidy step⟩
  have upstream : (written tr).Nodup ∧ (∀ req ∈ written tr, req ∈ requests tr) ∧
      ∀ c req, .response req ∈ conversation c tr → req ∈ written tr :=
    ⟨forwarded.wrote.nodup, fun req hreq => forwarded.requested req (forwarded.wrote.made req hreq),
      forwarded.answered⟩
  refine ⟨fun c => ?_, faithful.nodup, upstream, fun io hio => ?_, fun draw => ?_⟩
  · cases hc : s.conns c with
    | none =>
        rw [faithful.absent c hc]
        exact ⟨[], [], rfl, .inl rfl⟩
    | some loop => exact (faithful.serves c loop hc).conversation
  · exact ⟨(faithful.tidy.pool io hio).1, faithful.keyed.pool io hio⟩
  · obtain ⟨out, next, hselect, -, -⟩ := faithful.balancer.select reliable draw
    rw [hselect]
    rfl

/-- The second client's request goes out on the connection of the first. -/
theorem two_clients_in_order :
    ∃ (server s : TtheaderServer String (List UInt16)) (tr : List (TtheaderEvent String)),
      Run (TtheaderStep ⟨some 60, none⟩ (weightedIndex true) "unexpected eof") server tr s ∧
      conversation 1 tr = [.request 1, .response 1] ∧
      (∀ c, Conversation (conversation c tr)) ∧ (requests tr).Nodup ∧
      ((written tr).Nodup ∧ (∀ req ∈ written tr, req ∈ requests tr) ∧
        ∀ c req, .response req ∈ conversation c tr → req ∈ written tr) ∧
      (∀ io ∈ s.connector.pool, io.unread = [] ∧ io.key ∈ [UnifiedL4Addr.unix .empty]) ∧
      ∀ draw, (s.endpoints.select (weightedIndex true) draw).isSome := by
  let config : RouteConfig := ⟨.first, [⟨.unix .empty, 1⟩]⟩
  let server : TtheaderServer String (List UInt16) :=
    { conns := fun _ => none, connector := .start, endpoints := .identity ⟨.unix .empty⟩ }
  have built : config.proxyHandler (weightedIndex true) = some (.ok server) := rfl
  have selected : server.endpoints.select (weightedIndex true) 0 = some _ := rfl
  have run : Run (TtheaderStep ⟨some 60, none⟩ (weightedIndex true) "unexpected eof") server
      [.accepted 0, .accepted 1, .peeked 0 .data, .peeked 1 .data, .requested 0 0,
        .proxied (.connected 0 none), .proxied (.wrote 0), .proxied (.sent 0 (.ok ())),
        .proxied (.next 0 (some (.ok 0))), .requested 1 1, .proxied (.connected 1 (some 0)),
        .handled 0, .proxied (.wrote 1), .replied 0 0 (.ok ()), .proxied (.sent 1 (.ok ())),
        .proxied (.next 1 (some (.ok 1))), .handled 1, .replied 1 1 (.ok ())] _ :=
    .cons (.accepted rfl) <| .cons (.accepted rfl) <| .cons (.peeked rfl) <|
    .cons (.peeked rfl) <| .cons (.requested rfl selected (.called rfl)) <|
    .cons (.proxied rfl (.connectedNew rfl)) <| .cons (.proxied rfl (.wrote rfl)) <|
    .cons (.proxied rfl (.sent rfl)) <| .cons (.proxied rfl (.received rfl rfl)) <|
    .cons (.requested rfl selected (.called rfl)) <|
    .cons (.proxied rfl (.connectedPooled rfl rfl)) <| .cons (.handled rfl rfl) <|
    .cons (.proxied rfl (.wrote rfl)) <| .cons (.replied rfl) <|
    .cons (.proxied rfl (.sent rfl)) <| .cons (.proxied rfl (.received rfl rfl)) <|
    .cons (.handled rfl rfl) <| .single (.replied rfl)
  exact ⟨_, _, _, run, rfl, conversations_in_order (weightedIndex_reliable true) built run⟩

end Monolake.Thrift
