import Monolake.Http.HandlerStack
import Monolake.Http.Persistence
import Monolake.Http.UpstreamSend

/-!
A request on its way through the handlers that `l7_factory` puts together, to an upstream
connection and back.
-/
namespace Monolake.Http

open Common
variable {K L B Err E F I D : Type}

/-- A service of layer 7 as its HTTP/1 connections see it, and what they use of other crates. -/
structure ProxySite (B E F I D : Type) where
  http : HttpCrate
  requestCodec : BodyCodec B F
  responseCodec : BodyCodec (HttpBody E) F
  matchit : Matchit I
  rand : Rand UInt16 D
  httpTimeout : HttpServerTimeout
  enableContentHandler : Bool
  selector : Router (LoadBalancer Endpoint D)

/-- The exchanges of `UpstreamHandler::call` are noted. -/
def UpstreamHandler.noted (self : UpstreamHandler K L B Err E) (http : HttpCrate)
    (ctx : ConnectionContext) (request : Request B) :
    ExceptT Empty (StateT (List (Exchange B E)) Option) (Response E × Bool) :=
  ExceptT.mk fun exchanges =>
    (UpstreamHandler.call http self.sendHttpRequest self.sendHttpsRequest ctx request).map
      fun exchange => (.ok exchange.returned, exchanges ++ [exchange])

namespace ProxySite
variable (site : ProxySite B E F I D)

abbrev Error : Type := StackError Empty (l7Stack site.enableContentHandler)

def config (select : Routing) : StackConfig B E F :=
  { requestCodec := site.requestCodec, responseCodec := site.responseCodec, http := site.http
    select }

/-- A call of the handlers: what it returns, and the exchanges on the way. It panics, or awaits
a connector for ever, when it is `none`. -/
def handle (select : Routing) (self : UpstreamHandler K L B Err E) (ctx : ConnectionContext)
    (request : Request B) : Option (Except site.Error (Response E × Bool) × List (Exchange B E)) :=
  (stack (m := StateT (List (Exchange B E)) Option) (site.config select) (fun _ => none)
    (self.noted site.http ctx) (l7Stack site.enableContentHandler) request).run.run []

/-- What the content handler, if there is one, passes on. -/
def passedOn (request : Request B) : Option (Request B) :=
  if site.enableContentHandler then
    ContentHandler.handed site.requestCodec site.responseCodec request
  else some request

def passedBack (request : Request B) (response : Response E) : Response E :=
  if site.enableContentHandler then
    ContentHandler.answered (ContentHandler.encodeResponse site.responseCodec request response)
  else response

end ProxySite

/-! The upstream handler. -/

/-- The exchanges for a request: it is refused, or goes to a connection with at most its version
and its `Host` changed. -/
inductive Sent (request : Request B) : Exchange B E → Prop
  | refused {status} (of : status = badRequest ∨ status = badGateway) :
      Sent request (.refused status)
  | exchanged {Err : Type} {conn : HttpConnection B Err E} {sent}
      (method : sent.method = request.method) (uri : sent.uri = request.uri)
      (body : sent.body = request.body)
      (headers : ∀ name, name ≠ "host" →
        sent.headers.getAll name = request.headers.getAll name) :
      Sent request (conn.exchange sent)

section
variable {self : UpstreamHandler K L B Err E} {request : Request B} {exchange : Exchange B E}

theorem Sent.unchanged (conn : HttpConnection B Err E) (request : Request B) :
    Sent request (conn.exchange request : Exchange B E) :=
  .exchanged rfl rfl rfl fun _ _ => rfl

theorem sendHttpRequest_sent (h : self.sendHttpRequest request = some exchange) :
    Sent request exchange := by
  simp only [UpstreamHandler.sendHttpRequest] at h
  split at h
  · cases h
    exact .refused (.inl rfl)
  · split at h
    · cases h
      exact .refused (.inl rfl)
    · cases h
      exact .refused (.inl rfl)
    · split at h
      · cases h
      · cases h
        exact .refused (.inr rfl)
      · rename_i conn _
        cases conn with
        | http1 send =>
            dsimp only at h
            cases h
            exact .exchanged rfl rfl rfl fun _ _ => rfl
        | http2 send =>
            dsimp only at h
            cases h
            exact .exchanged rfl rfl rfl fun name other =>
              HeaderMap.getAll_remove_of_ne _ _ other

theorem sendHttpsRequest_sent (h : self.sendHttpsRequest request = some exchange) :
    Sent request exchange := by
  rw [UpstreamHandler.sendHttpsRequest] at h
  split at h
  · cases h
    exact .refused (.inl rfl)
  · split at h
    · cases h
      exact .refused (.inr rfl)
    · cases h
    · cases h
      exact .refused (.inr rfl)
    · cases h
      exact .unchanged _ request

/-- Over either way the request goes out with the address of the client. -/
theorem upstream_sent {http : HttpCrate} {ctx : ConnectionContext}
    (h : UpstreamHandler.call http self.sendHttpRequest self.sendHttpsRequest ctx request =
      some exchange) :
    Sent { request with headers := addXffHeader http request.headers ctx } exchange := by
  rw [UpstreamHandler.call] at h
  split at h
  · exact sendHttpsRequest_sent h
  · exact sendHttpRequest_sent h

theorem Sent.goes_on (h : Sent request exchange) : exchange.returned.2 = true := by
  cases h with
  | refused => rfl
  | @exchanged Err conn sent =>
      rw [HttpConnection.exchange]
      cases conn.sendRequest sent <;> rfl

end

/-! The handlers around it. -/

/-- The exchanges for a request, and the response from behind the persistence handler. The
endpoint has one of the properties `On`, and where there is none, `Unrouted`. -/
inductive Handled (site : ProxySite B E F I D) (ctx : ConnectionContext) (Unrouted : Prop)
    (On : Endpoint → Prop) (request : Request B) : List (Exchange B E) → Response E → Prop
  | unrouted (unrouted : Unrouted) :
      Handled site ctx Unrouted On request [] (generateResponse notFound false)
  | undecoded {endpoint rewritten} (on : On endpoint)
      (rewrites : rewriteRequest site.http request.relayed endpoint = some rewritten)
      (refused : site.passedOn rewritten = none) :
      Handled site ctx Unrouted On request [] (generateResponse badRequest false)
  | exchanged {endpoint rewritten passed exchange} (on : On endpoint)
      (rewrites : rewriteRequest site.http request.relayed endpoint = some rewritten)
      (passes : site.passedOn rewritten = some passed)
      (sent : Sent { passed with headers := addXffHeader site.http passed.headers ctx } exchange) :
      Handled site ctx Unrouted On request [exchange]
        (site.passedBack rewritten exchange.returned.1)

section
variable {site : ProxySite B E F I D} {self : UpstreamHandler K L B Err E}
  {ctx : ConnectionContext} {select : Routing} {request : Request B}

theorem routed_ran {Er L' : Type} {http : HttpCrate}
    {inner : Request B → ExceptT Er (StateT L' Option) (Response E × Bool)} {s s' : L'}
    {result : Except (SelectError (RouterError Empty) (HttpFatalError Er)) (Response E × Bool)}
    (h : (RewriteAndRouteHandler.call http (m := StateT L' Option) (fun _ => none) select inner
      request).run.run s = some (result, s')) :
    (∃ e, select request.uri.path = some (.error e) ∧
      result = .ok (generateResponse notFound false, true) ∧ s' = s) ∨
    ∃ endpoint rewritten given, select request.uri.path = some (.ok endpoint) ∧
      rewriteRequest http request endpoint.value = some rewritten ∧
      (inner rewritten).run.run s = some (given, s') ∧
      result = given.mapError fun e => .serviceError ⟨e⟩ := by
  obtain ⟨routed, s₁, ran, rest⟩ := ran_bind (x := (ServiceRouter.call (m := StateT L' Option)
    (fun _ => none) select _ request).run) h
  rw [ServiceRouter.call] at ran
  cases selected : select request.uri.path with
  | none =>
      rw [selected] at ran
      cases ran
  | some out =>
      rw [selected] at ran
      cases out with
      | error e =>
          cases ran
          cases rest
          exact .inl ⟨e, rfl, rfl, rfl⟩
      | ok endpoint =>
          obtain ⟨⟨answered, s₂⟩, ran, rest'⟩ := Option.bind_eq_some_iff.mp ran
          cases rest'
          rw [RewriteHandler.call] at ran
          cases rewritten : rewriteRequest http request endpoint.value with
          | none =>
              rw [rewritten] at ran
              cases ran
          | some rewritten' =>
              rw [rewritten] at ran
              obtain ⟨⟨given, s₃⟩, ran, rest'⟩ := Option.bind_eq_some_iff.mp ran
              cases rest'
              refine .inr ⟨endpoint, rewritten', given, rfl, rewritten, ?_⟩
              cases given with
              | error e =>
                  cases rest
                  exact ⟨ran, rfl⟩
              | ok reply =>
                  cases rest
                  exact ⟨ran, rfl⟩

theorem noted_ran {http : HttpCrate} {given : Except Empty (Response E × Bool)}
    {exchanges : List (Exchange B E)}
    (h : (self.noted http ctx request).run.run [] = some (given, exchanges)) :
    ∃ exchange, Sent { request with headers := addXffHeader http request.headers ctx } exchange ∧
      exchanges = [exchange] ∧ given = .ok (exchange.returned.1, true) := by
  obtain ⟨exchange, called, rest⟩ := Option.map_eq_some_iff.mp h
  cases rest
  have sent := upstream_sent called
  exact ⟨exchange, sent, rfl, congrArg Except.ok (Prod.ext rfl sent.goes_on)⟩

/-- Behind the routing: the content handler or none, and the upstream handler. -/
theorem content_noted_ran
    {given : Except (StackError Empty (if site.enableContentHandler then [.content] else []))
      (Response E × Bool)} {exchanges : List (Exchange B E)}
    (h : (stack (m := StateT (List (Exchange B E)) Option) (site.config select) (fun _ => none)
      (self.noted site.http ctx) (if site.enableContentHandler then [.content] else [])
      request).run.run [] = some (given, exchanges)) :
    (site.passedOn request = none ∧ exchanges = [] ∧
      given = .ok (generateResponse badRequest false, true)) ∨
    ∃ passed exchange, site.passedOn request = some passed ∧
      Sent { passed with headers := addXffHeader site.http passed.headers ctx } exchange ∧
      exchanges = [exchange] ∧
      given = .ok (site.passedBack request exchange.returned.1, true) := by
  obtain ⟨http, requestCodec, responseCodec, matchit, rand, httpTimeout, enableContentHandler,
    selector⟩ := site
  cases enableContentHandler with
  | false =>
      obtain ⟨exchange, sent, only, reply⟩ := noted_ran h
      exact .inr ⟨request, exchange, rfl, sent, only, reply⟩
  | true =>
      have called : (ContentHandler.call requestCodec responseCodec (self.noted http ctx)
        request).run.run [] = some (given, exchanges) := h
      cases handed : ContentHandler.handed requestCodec responseCodec request with
      | none =>
          rw [ContentHandler.call_unhanded handed] at called
          cases called
          exact .inl ⟨handed, rfl, rfl⟩
      | some passed =>
          rw [ContentHandler.call_encodeResponse handed] at called
          obtain ⟨reply, exchanges', ran, rest⟩ :=
            ran_bind (x := (self.noted http ctx passed).run) called
          obtain ⟨exchange, sent, rfl, rfl⟩ := noted_ran ran
          cases rest
          exact .inr ⟨passed, exchange, handed, sent, rfl, rfl⟩

/-- The handlers answer every request, and what they return tells what it asks of the
connection. -/
theorem ProxySite.handle_handled
    (version : request.version = .http10 ∨ request.version = .http11)
    {result : Except site.Error (Response E × Bool)} {exchanges : List (Exchange B E)}
    (h : site.handle select self ctx request = some (result, exchanges)) :
    ∃ given response,
      Handled site ctx (∃ e, select request.uri.path = some (.error e))
        (fun endpoint => ∃ out, select request.uri.path = some (.ok out) ∧ out.value = endpoint)
        request exchanges given ∧
      Persists request (given, true) (response, isConnKeepalive request.headers request.version) ∧
      result = .ok (response, isConnKeepalive request.headers request.version) := by
  obtain ⟨resumed, persists, asks⟩ := call_persists (E := E) request version
  have kept : ∀ given, resumed (given, true) =
      ((resumed (given, true)).1, isConnKeepalive request.headers request.version) := fun given =>
    Prod.ext rfl ((persists (given, true)).cont_eq.trans (Bool.true_and _))
  have replies : ∀ given, Persists request (given, true)
      ((resumed (given, true)).1, isConnKeepalive request.headers request.version) := by
    intro given
    have reply := persists (given, true)
    rwa [kept given] at reply
  let behind := stack (m := StateT (List (Exchange B E)) Option) (site.config select)
    (fun _ => none) (self.noted site.http ctx)
    (if site.enableContentHandler then [.content] else [])
  let routing := RewriteAndRouteHandler.call (m := StateT (List (Exchange B E)) Option) site.http
    (fun _ => none) select behind
  have called : (ConnectionReuseHandler.call routing request).run.run [] =
      some (result, exchanges) := h
  rw [asks] at called
  obtain ⟨reply, exchanges', ran, rest⟩ := ran_bind (x := (routing request.relayed).run) called
  rcases routed_ran ran with ⟨e, route, rfl, rfl⟩ |
    ⟨endpoint, rewritten, given, route, rewrites, behind_ran, rfl⟩
  · cases rest
    exact ⟨_, _, .unrouted ⟨e, route⟩, replies _, congrArg Except.ok (kept _)⟩
  · rcases content_noted_ran behind_ran with ⟨refused, rfl, rfl⟩ |
      ⟨passed, exchange, passes, sent, rfl, rfl⟩
    · cases rest
      exact ⟨_, _, .undecoded ⟨endpoint, route, rfl⟩ rewrites refused, replies _,
        congrArg Except.ok (kept _)⟩
    · cases rest
      exact ⟨_, _, .exchanged ⟨endpoint, route, rfl⟩ rewrites passes sent, replies _,
        congrArg Except.ok (kept _)⟩

end

end Monolake.Http
