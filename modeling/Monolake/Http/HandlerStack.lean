import Monolake.Http.ContentResponse
import Monolake.Http.Route

/-!
The stack of handlers around the one that answers. A handler returns a response with a
flag that says whether the connection goes on; every handler around it passes the flag
on, masks it or sets it itself.
-/
namespace Monolake.Http

universe u v w
open Common

variable {B E F Err : Type u}

/-- The trait `HttpError`, for the bodies of responses. -/
class HttpError (E : Type u) (Err : Type v) where
  toResponse : Err → Option (Response E)

structure HttpFatalError (Err : Type v) where
  error : Err

inductive SelectError (ESEL : Type v) (ESVC : Type w) where
  | selectorError (e : ESEL)
  | serviceError (e : ESVC)

def notFound : Nat := 404

instance {X : Type v} : HttpError E (RouterError X) where
  toResponse _ := some (generateResponse notFound false)

instance {X : Type v} : HttpError E (HttpFatalError X) where
  toResponse _ := none

instance {ESEL : Type v} {ESVC : Type w} [HttpError E ESEL] [HttpError E ESVC] :
    HttpError E (SelectError ESEL ESVC) where
  toResponse
    | .selectorError e => HttpError.toResponse e
    | .serviceError e => HttpError.toResponse e

section
variable {m : Type u → Type v} [Monad m] {ESVC : Type u}

def HttpErrorResponder.call [HttpError E Err]
    (inner : Request B → ExceptT Err m (Response E × Bool)) (request : Request B) :
    ExceptT Err m (Response E × Bool) :=
  ExceptT.mk do
    match ← (inner request).run with
    | .ok resp => return .ok resp
    | .error e =>
        match HttpError.toResponse e with
        | some r => return .ok (r, true)
        | none => return .error e

/-- The selector of the router, for a path. -/
abbrev Routing := String → Option (Except (RouterError Empty) (Ref Endpoint))

/-- What a router selects at one draw. -/
def Router.routing {I : Type v} {D : Type w} (matchit : Matchit I) (rand : Rand UInt16 D)
    (router : Router (LoadBalancer Endpoint D)) (draw : Nat) : Routing := fun path =>
  (router.select matchit rand path draw).map Prod.fst

/-- `panicked` stands for a panic, which is what `none` is for the selector. -/
def ServiceRouter.call (panicked : ∀ {α : Type u}, m α) (select : Routing)
    (svc : Request B → Ref Endpoint → ExceptT ESVC m (Response E × Bool)) (request : Request B) :
    ExceptT (SelectError (RouterError Empty) ESVC) m (Response E × Bool) :=
  match select request.uri.path with
  | some (.ok selOut) => (svc request selOut).adapt .serviceError
  | some (.error e) => throw (.selectorError e)
  | none => ExceptT.mk panicked

def RewriteAndRouteHandler.call (http : HttpCrate) (panicked : ∀ {α : Type u}, m α)
    (select : Routing) (inner : Request B → ExceptT Err m (Response E × Bool)) :
    Request B →
      ExceptT (SelectError (RouterError Empty) (HttpFatalError Err)) m (Response E × Bool) :=
  HttpErrorResponder.call <| ServiceRouter.call panicked select fun request ep =>
    RewriteHandler.call http ep.value (ExceptT.mk panicked)
      (fun request => (inner request).adapt HttpFatalError.mk) request

end

/-! Stacks. -/

inductive Wrapper where
  | content
  | rewriteAndRoute
  | connectionReuse
  deriving DecidableEq

/-- What the wrapping handlers are made with. -/
structure StackConfig (B E F : Type u) where
  requestCodec : BodyCodec B F
  responseCodec : BodyCodec (HttpBody E) F
  http : HttpCrate
  select : Routing

/-- The errors of a stack over a handler with errors `Err`. -/
def StackError (Err : Type u) : List Wrapper → Type u
  | [] => Err
  | .content :: ws | .connectionReuse :: ws => StackError Err ws
  | .rewriteAndRoute :: ws => SelectError (RouterError Empty) (HttpFatalError (StackError Err ws))

/-- The wrappers around the innermost handler, from the outside in. -/
def stack {m : Type u → Type v} [Monad m] (config : StackConfig B E F)
    (panicked : ∀ {α : Type u}, m α) (innermost : Request B → ExceptT Err m (Response E × Bool)) :
    (ws : List Wrapper) → Request B → ExceptT (StackError Err ws) m (Response E × Bool)
  | [] => innermost
  | .content :: ws =>
      ContentHandler.call config.requestCodec config.responseCodec
        (stack config panicked innermost ws)
  | .rewriteAndRoute :: ws =>
      RewriteAndRouteHandler.call config.http panicked config.select
        (stack config panicked innermost ws)
  | .connectionReuse :: ws => ConnectionReuseHandler.call (stack config panicked innermost ws)

/-- The handlers that `l7_factory` puts around the one for the upstreams. -/
def l7Stack (enableContentHandler : Bool) : List Wrapper :=
  [.connectionReuse, .rewriteAndRoute] ++ if enableContentHandler then [.content] else []

abbrev Results (E Err : Type u) := List (Except Err (Response E × Bool))

/-- The innermost handler, with a list of what it has returned; `none` is a panic. -/
def noted (innermost : Request B → Option (Except Err (Response E × Bool))) (request : Request B) :
    ExceptT Err (StateT (Results E Err) Option) (Response E × Bool) :=
  ExceptT.mk fun returned => (innermost request).map fun result => (result, returned ++ [result])

/-- A call of the stack: what it returns, and what the innermost handler has. -/
def serve (config : StackConfig B E F)
    (innermost : Request B → Option (Except Err (Response E × Bool))) (ws : List Wrapper)
    (request : Request B) (returned : Results E Err) :
    Option (Except (StackError Err ws) (Response E × Bool) × Results E Err) :=
  (stack (m := StateT (Results E Err) Option) config (fun _ => none) (noted innermost) ws
    request).run.run returned

/-- What becomes of the flag of the innermost handler in the stack, for a request that
is kept alive or not. -/
def passFlag : List Wrapper → Bool → Bool → Bool
  | [], _, cont => cont
  | .content :: _, _, _ => true
  | .rewriteAndRoute :: ws, keepalive, cont => passFlag ws keepalive cont
  | .connectionReuse :: ws, keepalive, cont => passFlag ws true cont && keepalive

theorem passFlag_close_iff (ws : List Wrapper) (keepalive : Bool) :
    passFlag ws keepalive false = false ↔ .content ∉ ws ∨
      (.connectionReuse ∈ ws.takeWhile (· ≠ .content) ∧ keepalive = false) := by
  induction ws generalizing keepalive with
  | nil => simp [passFlag]
  | cons w ws ih =>
      cases w with
      | content => simp [passFlag]
      | rewriteAndRoute => simp [passFlag, ih]
      | connectionReuse =>
          rw [passFlag, Bool.and_eq_false_iff, ih]
          simp

/-- How a call can end: the innermost handler is not reached, or its flag has gone
through `flag` when it returned one. -/
inductive Ends {Err' : Type u} (flag : Bool → Bool) (returned : Results E Err) :
    Except Err' (Response E × Bool) → Results E Err → Prop
  | unreached {result : Except Err' (Response E × Bool)} : Ends flag returned result returned
  | reached {inner : Except Err (Response E × Bool)} {result : Except Err' (Response E × Bool)}
      (passed : ∀ response cont, inner = .ok (response, cont) →
        ∃ response', result = .ok (response', flag cont)) :
      Ends flag returned result (returned ++ [inner])

/-! What the wrappers do with a request. -/

theorem relayed_keepalive (request : Request B) :
    isConnKeepalive request.relayed.headers request.relayed.version = true := by
  have removed : request.relayed.headers.get "connection" = none := by
    rw [get_eq_head?, Request.relayed, HeaderMap.getAll_remove_self]
    rfl
  rw [Request.relayed] at removed ⊢
  simp only [isConnKeepalive, removed]

/-- The routing leaves alone what says whether the connection is kept. -/
theorem rewriteRequest_keepalive {http : HttpCrate} {endpoint : Endpoint}
    {request request' : Request B} (h : rewriteRequest http request endpoint = some request') :
    request'.version = request.version ∧
      isConnKeepalive request'.headers request'.version =
        isConnKeepalive request.headers request.version := by
  cases endpoint with
  | socket | unix => cases h
  | uri remote =>
      rw [rewriteRequest] at h
      cases hauthority : remote.authority with
      | none =>
          simp only [hauthority] at h
          cases h
          exact ⟨rfl, rfl⟩
      | some authority =>
          simp only [hauthority] at h
          obtain ⟨uri, -, rfl⟩ := Option.map_eq_some_iff.mp h
          refine ⟨rfl, ?_⟩
          have connection : ∀ value, ((request.headers.remove "host").insert "host" value).get
              "connection" = request.headers.get "connection" := by
            intro value
            rw [get_eq_head?, get_eq_head?, HeaderMap.getAll_insert_of_ne _ _ _ (by decide),
              HeaderMap.getAll_remove_of_ne _ _ (by decide)]
          simp only [isConnKeepalive, connection]

namespace ContentHandler
variable {requestCodec : BodyCodec B F} {responseCodec : BodyCodec (HttpBody E) F}
  {request : Request B}

theorem handed_version {passed : Request B}
    (h : handed requestCodec responseCodec request = some passed) :
    passed.version = request.version := by
  by_cases decoded : ∃ data, Decoded requestCodec request data
  · obtain ⟨data, hdata⟩ := decoded
    rw [handed_decoded hdata] at h
    obtain rfl := Option.some.inj h
    rfl
  · rw [handed_undecoded (not_exists.mp decoded) h]

/-- What cannot be decoded is answered at once. -/
theorem call_unhanded (h : handed requestCodec responseCodec request = none)
    {m : Type u → Type v} [Monad m] (inner : Request B → m (Response E × Bool)) :
    call requestCodec responseCodec inner request =
      pure (generateResponse badRequest false, true) := by
  by_cases direct : contentLength request.headers = 0 ∨
      contentEncoding request.headers = "identity"
  · simp only [handed, call, if_pos direct] at h
    cases h
  · cases decoded : requestCodec.decodeContent request.body (contentEncoding request.headers) with
    | error e => simp only [call, if_neg direct, decoded]
    | ok data =>
        obtain ⟨length, encoding⟩ := not_or.mp direct
        rw [handed_decoded ⟨length, encoding, decoded⟩] at h
        cases h

end ContentHandler

section
variable {L : Type u} {Err' : Type u}

/-- The call ends as `inner` did, and the flag of a reply goes through `flag`. -/
def HandsOn (flag : Bool → Bool) (inner : Option (Except Err (Response E × Bool) × L))
    (result : Except Err' (Response E × Bool)) (s : L) : Prop :=
  ∃ given, inner = some (given, s) ∧ ∀ response cont, given = .ok (response, cont) →
    ∃ response', result = .ok (response', flag cont)

theorem HandsOn.trans {Err'' : Type u} {flag flag' : Bool → Bool} {s : L}
    {out : Option (Except Err (Response E × Bool) × L)} {given : Except Err' (Response E × Bool)}
    {result : Except Err'' (Response E × Bool)} (h : HandsOn flag (some (given, s)) result s)
    (before : HandsOn flag' out given s) :
    HandsOn (fun cont => flag (flag' cont)) out result s := by
  obtain ⟨given', hgiven, replies⟩ := h
  obtain ⟨first, ran, replies'⟩ := before
  cases hgiven
  refine ⟨first, ran, fun response cont hreply => ?_⟩
  obtain ⟨response', hresponse⟩ := replies' response cont hreply
  exact replies response' (flag' cont) hresponse

section
variable {s s' : L} {request : Request B}
  {inner : Request B → ExceptT Err (StateT L Option) (Response E × Bool)}

/-- What runs behind a call runs on what that ended with. -/
theorem ran_bind {α β : Type u} {x : StateT L Option α} {next : α → StateT L Option β} {b : β}
    (h : (x >>= next).run s = some (b, s')) :
    ∃ a s₁, x.run s = some (a, s₁) ∧ (next a).run s₁ = some (b, s') := by
  obtain ⟨⟨a, s₁⟩, ran, rest⟩ := Option.bind_eq_some_iff.mp h
  exact ⟨a, s₁, ran, rest⟩

/-- A reply is changed after the call. -/
theorem resumed_ran {x : ExceptT Err (StateT L Option) (Response E × Bool)}
    {f : Response E × Bool → Response E × Bool} {flag : Bool → Bool}
    (flagged : ∀ given, (f given).2 = flag given.2) {result : Except Err (Response E × Bool)}
    (h : (x >>= fun given => pure (f given)).run.run s = some (result, s')) :
    HandsOn flag (x.run.run s) result s' := by
  obtain ⟨given, s₁, ran, rest⟩ := ran_bind (x := x.run) h
  cases given with
  | error e =>
      cases rest
      exact ⟨.error e, ran, fun _ _ hreply => by cases hreply⟩
  | ok given =>
      cases rest
      refine ⟨.ok given, ran, fun response cont hreply => ⟨(f given).1, ?_⟩⟩
      cases hreply
      exact congrArg Except.ok (Prod.ext rfl (flagged (response, cont)))

theorem connectionReuse_ran (version : request.version = .http10 ∨ request.version = .http11)
    {result : Except Err (Response E × Bool)}
    (h : (ConnectionReuseHandler.call inner request).run.run s = some (result, s')) :
    HandsOn (· && isConnKeepalive request.headers request.version)
      ((inner request.relayed).run.run s) result s' := by
  obtain ⟨resumed, persists, asks⟩ := call_persists (E := E) request version
  rw [asks] at h
  exact resumed_ran (fun given => (persists given).cont_eq) h

/-- What cannot be decoded does not get to the handler behind. -/
theorem content_ran {requestCodec : BodyCodec B F} {responseCodec : BodyCodec (HttpBody E) F}
    {result : Except Err (Response E × Bool)}
    (h : (ContentHandler.call requestCodec responseCodec inner request).run.run s =
      some (result, s')) :
    s' = s ∨ ∃ passed, ContentHandler.handed requestCodec responseCodec request = some passed ∧
      HandsOn (fun _ => true) ((inner passed).run.run s) result s' := by
  cases handed : ContentHandler.handed requestCodec responseCodec request with
  | none =>
      rw [ContentHandler.call_unhanded handed] at h
      cases h
      exact .inl rfl
  | some passed =>
      rw [ContentHandler.call_encodeResponse handed] at h
      exact .inr ⟨passed, rfl, resumed_ran (fun _ => rfl) h⟩

theorem adapt_ran {x : ExceptT Err (StateT L Option) (Response E × Bool)} {f : Err → Err'}
    {result : Except Err' (Response E × Bool)}
    (h : (x.adapt f).run.run s = some (result, s')) : HandsOn id (x.run.run s) result s' := by
  change Option.bind (x.run.run s) _ = _ at h
  obtain ⟨⟨given, s₁⟩, ran, rest⟩ := Option.bind_eq_some_iff.mp h
  cases rest
  refine ⟨given, ran, fun response cont hreply => ⟨response, ?_⟩⟩
  rw [hreply]
  rfl

theorem responder_ran [HttpError E Err] {result : Except Err (Response E × Bool)}
    (h : (HttpErrorResponder.call inner request).run.run s = some (result, s')) :
    HandsOn id ((inner request).run.run s) result s' := by
  obtain ⟨given, s₁, ran, rest⟩ := ran_bind (x := (inner request).run) h
  cases given with
  | ok reply =>
      cases rest
      exact ⟨.ok reply, ran, fun response _ hreply => ⟨response, hreply⟩⟩
  | error e =>
      refine ⟨.error e, ?_, fun _ _ hreply => by cases hreply⟩
      cases responds : HttpError.toResponse (E := E) e with
      | some r =>
          simp only [responds] at rest
          cases rest
          exact ran
      | none =>
          simp only [responds] at rest
          cases rest
          exact ran

/-- A path without a route does not get to the service. -/
theorem router_ran {select : Routing}
    {svc : Request B → Ref Endpoint → ExceptT Err (StateT L Option) (Response E × Bool)}
    {result : Except (SelectError (RouterError Empty) Err) (Response E × Bool)}
    (h : (ServiceRouter.call (m := StateT L Option) (fun _ => none) select svc request).run.run s =
      some (result, s')) :
    s' = s ∨ ∃ endpoint, HandsOn id ((svc request endpoint).run.run s) result s' := by
  rw [ServiceRouter.call] at h
  cases selected : select request.uri.path with
  | none =>
      rw [selected] at h
      cases h
  | some out =>
      rw [selected] at h
      cases out with
      | error e =>
          cases h
          exact .inl rfl
      | ok endpoint => exact .inr ⟨endpoint, adapt_ran h⟩

theorem rewrite_ran {http : HttpCrate} {endpoint : Endpoint}
    {result : Except (HttpFatalError Err) (Response E × Bool)}
    (h : (RewriteHandler.call http endpoint (m := ExceptT _ (StateT L Option)) (fun _ => none)
      (fun request => (inner request).adapt HttpFatalError.mk) request).run.run s =
        some (result, s')) :
    ∃ request', rewriteRequest http request endpoint = some request' ∧
      HandsOn id ((inner request').run.run s) result s' := by
  rw [RewriteHandler.call] at h
  cases rewritten : rewriteRequest http request endpoint with
  | none =>
      rw [rewritten] at h
      cases h
  | some request' =>
      rw [rewritten] at h
      exact ⟨request', rfl, adapt_ran h⟩

theorem rewriteAndRoute_ran {http : HttpCrate} {select : Routing}
    {result : Except (SelectError (RouterError Empty) (HttpFatalError Err)) (Response E × Bool)}
    (h : (RewriteAndRouteHandler.call http (m := StateT L Option) (fun _ => none) select inner
      request).run.run s = some (result, s')) :
    s' = s ∨ ∃ endpoint request', rewriteRequest http request endpoint = some request' ∧
      HandsOn id ((inner request').run.run s) result s' := by
  obtain ⟨routed, ran, replies⟩ := responder_ran h
  rcases router_ran ran with unreached | ⟨endpoint, rewritten, ran', replies'⟩
  · exact .inl unreached
  · obtain ⟨request', hrequest, handsOn⟩ := rewrite_ran ran'
    have answered : HandsOn id (some (rewritten, s')) routed s' := ⟨rewritten, rfl, replies'⟩
    have responded : HandsOn id (some (routed, s')) result s' := ⟨routed, rfl, replies⟩
    exact .inr ⟨endpoint.value, request', hrequest, responded.trans (answered.trans handsOn)⟩

end

end

/-- One wrapper more around a call. -/
theorem Ends.handedOn {Err' Err'' : Type u} {flag flag' : Bool → Bool}
    {returned returned' : Results E Err} {result : Except Err'' (Response E × Bool)}
    {out : Option (Except Err' (Response E × Bool) × Results E Err)}
    (ends : ∀ given, out = some (given, returned') → Ends flag returned given returned')
    (h : HandsOn flag' out result returned') :
    Ends (fun cont => flag' (flag cont)) returned result returned' := by
  obtain ⟨given, ran, replies⟩ := h
  cases ends given ran with
  | unreached => exact .unreached
  | reached passed =>
      refine .reached fun response cont hinner => ?_
      obtain ⟨response', hgiven⟩ := passed response cont hinner
      exact replies response' (flag cont) hgiven

/-- A call of a stack, by the wrappers from the inside out. -/
theorem serve_ends (config : StackConfig B E F)
    (innermost : Request B → Option (Except Err (Response E × Bool))) (ws : List Wrapper)
    {request : Request B} (version : request.version = .http10 ∨ request.version = .http11)
    {returned returned' : Results E Err} {result : Except (StackError Err ws) (Response E × Bool)}
    (h : serve config innermost ws request returned = some (result, returned')) :
    Ends (passFlag ws (isConnKeepalive request.headers request.version)) returned result
      returned' := by
  induction ws generalizing request returned' with
  | nil =>
      obtain ⟨inner, -, hreturned⟩ := Option.map_eq_some_iff.mp h
      cases hreturned
      exact .reached fun response cont hinner => ⟨response, hinner⟩
  | cons w ws ih =>
      cases w with
      | content =>
          rcases content_ran h with rfl | ⟨passed, handed, handsOn⟩
          · exact .unreached
          · have passed_version := ContentHandler.handed_version handed ▸ version
            have ends := Ends.handedOn (fun given ran => ih passed_version ran) handsOn
            exact ends
      | rewriteAndRoute =>
          rcases rewriteAndRoute_ran h with rfl | ⟨endpoint, request', rewritten, handsOn⟩
          · exact .unreached
          · obtain ⟨same, keepalive⟩ := rewriteRequest_keepalive rewritten
            have ends := Ends.handedOn (fun given ran => ih (same ▸ version) ran) handsOn
            rw [keepalive] at ends
            exact ends
      | connectionReuse =>
          have handsOn := connectionReuse_ran version h
          have ends := Ends.handedOn (fun given ran => ih (.inr rfl) ran) handsOn
          rw [relayed_keepalive] at ends
          exact ends

/-- A decision of the innermost handler to close is kept by a stack, for an HTTP/1
request, if and only if no content handler is in the stack, or the client asks for the
connection to be closed and that is looked at outside of all content handlers. -/
theorem close_kept_iff (config : StackConfig B E F)
    (innermost : Request B → Option (Except Err (Response E × Bool))) (ws : List Wrapper)
    {request : Request B} (version : request.version = .http10 ∨ request.version = .http11)
    {returned : Results E Err} {result : Except (StackError Err ws) (Response E × Bool)}
    (h : serve config innermost ws request [] = some (result, returned))
    {response : Response E} (closed : .ok (response, false) ∈ returned) :
    (∃ response', result = .ok (response', false)) ↔
      .content ∉ ws ∨ (.connectionReuse ∈ ws.takeWhile (· ≠ .content) ∧
        isConnKeepalive request.headers request.version = false) := by
  rw [← passFlag_close_iff]
  cases serve_ends config innermost ws version h with
  | unreached => cases closed
  | @reached inner _ passed =>
      rw [List.nil_append, List.mem_singleton] at closed
      obtain ⟨response', hresult⟩ := passed response false closed.symm
      rw [hresult]
      constructor
      · rintro ⟨_, hclose⟩
        exact congrArg Prod.snd (Except.ok.inj hclose)
      · intro hflag
        exact ⟨response', by rw [hflag]⟩

/-- One path with one upstream. -/
def plainStack : StackConfig Bytes String String where
  requestCodec := ContentHandler.gzipCodec
  responseCodec := ContentHandler.gzipResponseCodec
  http := plainHttp
  select := Router.routing staticPaths (weightedIndex true)
    { entries := [("/", .identity ⟨(upstreamAt "upstream:8080").endpoint⟩)] } 0

def closing (_ : Request Bytes) : Option (Except String (Response String × Bool)) :=
  some (.ok (ContentHandler.greeting, false))

theorem closed_without_content_handler :
    ∃ result returned, serve plainStack closing (l7Stack false)
      (ContentHandler.postRequest [] []) [] = some (result, returned) ∧
      ∃ response, result = .ok (response, false) := by
  have ran : ∃ result, serve plainStack closing (l7Stack false)
      (ContentHandler.postRequest [] []) [] =
        some (result, [.ok (ContentHandler.greeting, false)]) := ⟨_, rfl⟩
  obtain ⟨result, ran⟩ := ran
  have kept := close_kept_iff plainStack closing _ (.inr rfl) ran List.mem_cons_self
  exact ⟨result, _, ran, kept.mpr (.inl (by decide))⟩

/-- With the content handler the connection goes on. -/
theorem content_handler_overrules :
    ∃ response returned, serve plainStack closing (l7Stack true)
      (ContentHandler.postRequest [] []) [] = some (.ok (response, true), returned) ∧
      .ok (ContentHandler.greeting, false) ∈ returned :=
  ⟨_, _, rfl, List.mem_cons_self⟩

end Monolake.Http
