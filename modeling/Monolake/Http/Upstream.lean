import Monolake.Http.Address
import Monolake.Http.ConnectionReuse

/-!
What becomes of a request on its way to an upstream: the persistence handler
relays it, the routing handler points it at the endpoint, and the upstream
handler adds the address of the client.
-/
namespace Monolake.Http

universe u v
variable {B : Type u}

/-- What is used of the `http` crate: making header values, and the URI builder
on an authority, a scheme and a path with query. All can refuse. -/
structure HttpCrate where
  fromStr : String → Option String
  fromMaybeShared : String → Option String
  buildUri : String → String → String → Option Uri

/-- `uri.path()` -/
def Uri.path (uri : Uri) : String :=
  match uri.pathAndQuery with
  | some pathAndQuery => pathAndQuery.path
  | none => ""

inductive Endpoint where
  | uri (uri : Uri)
  | socket (ip : IpAddr) (port : UInt16)
  | unix (path : ByteArray)

/-- The URI that leads to the endpoint: its own authority, scheme and path, and
the query of the request. -/
def rewriteUri (http : HttpCrate) (remote : Uri) (authority : String) (uri : Uri) : Option Uri :=
  let scheme := remote.scheme.getD "http"
  let pathAndQuery :=
    match uri.pathAndQuery with
    | some pathAndQuery =>
        match pathAndQuery.query with
        | some query => remote.path ++ "?" ++ query
        | none => remote.path
    | none => "/"
  http.buildUri authority scheme pathAndQuery

/-- `none` when the worker panics: in `unimplemented!` or where the URI that was
built is unwrapped. -/
def rewriteRequest (http : HttpCrate) (request : Request B) : Endpoint → Option (Request B)
  | .uri remote =>
      match remote.authority with
      | some authority =>
          let headerValue := (http.fromStr authority).getD ""
          let headers := request.headers.remove "host"
          let headers := headers.insert "host" headerValue
          (rewriteUri http remote authority request.uri).map fun uri =>
            { request with headers, uri }
      | none => some request
  | .socket .. | .unix _ => none

/-- The parameters of a connection: its peer, and the client behind a proxy if
that is looked for and known. -/
structure ConnectionContext where
  peerAddr : AcceptedAddr
  remoteAddr : Option (Option AcceptedAddr)

def ConnectionContext.addr (ctx : ConnectionContext) : AcceptedAddr :=
  (ctx.remoteAddr.bind id).getD ctx.peerAddr

def addXffHeader (http : HttpCrate) (headers : HeaderMap) (ctx : ConnectionContext) :
    HeaderMap :=
  match ctx.addr with
  | .tcp ip _ =>
      match http.fromMaybeShared ip.text with
      | some value => headers.insert "forwarded" value
      | none => headers
  | .unix addr =>
      match addr.asPathname.bind String.fromUTF8? with
      | some path =>
          match http.fromStr path with
          | some value => headers.insert "forwarded" value
          | none => headers
      | none => headers

section
variable {m : Type u → Type v} {α : Type u}

/-- `panicked` stands for a panic of the rewriting. -/
def RewriteHandler.call (http : HttpCrate) (endpoint : Endpoint) (panicked : m α)
    (inner : Request B → m α) (request : Request B) : m α :=
  match rewriteRequest http request endpoint with
  | some request => inner request
  | none => panicked

def UpstreamHandler.call (http : HttpCrate) (sendHttpRequest sendHttpsRequest : Request B → m α)
    (ctx : ConnectionContext) (request : Request B) : m α :=
  let request := { request with headers := addXffHeader http request.headers ctx }
  if request.uri.scheme = some "https" then sendHttpsRequest request
  else sendHttpRequest request

end

/-- The request that the three handlers hand to the sending step: they are run
with a step that only tells what it was given. -/
def handedUpstream (http : HttpCrate) (endpoint : Endpoint) (ctx : ConnectionContext)
    (request : Request B) : Option (Request B) :=
  let tell : Request B → Except (Option (Request B)) (Response B × Bool) := fun request =>
    .error (some request)
  let chain := RewriteHandler.call http endpoint (.error none)
    (UpstreamHandler.call http tell tell ctx)
  match ConnectionReuseHandler.call chain request with
  | .error handed => handed
  | .ok _ => none

theorem handedUpstream_eq (http : HttpCrate) (endpoint : Endpoint) (ctx : ConnectionContext)
    {request : Request B} (version : request.version = .http10 ∨ request.version = .http11) :
    handedUpstream http endpoint ctx request =
      (rewriteRequest http request.relayed endpoint).map fun request =>
        { request with headers := addXffHeader http request.headers ctx } := by
  obtain ⟨resumed, -, asks⟩ := call_persists (E := B) request version
  rw [handedUpstream, asks, RewriteHandler.call]
  cases rewriteRequest http request.relayed endpoint with
  | none => rfl
  | some request =>
      simp only [UpstreamHandler.call, ite_self]
      rfl

/-- Two requests that differ at most in the values of the named headers. -/
structure SameBut (names : List String) (request request' : Request B) : Prop where
  method : request.method = request'.method
  uri : request.uri = request'.uri
  version : request.version = request'.version
  body : request.body = request'.body
  headers : ∀ name, name ∉ names →
    request.headers.getAll name = request'.headers.getAll name

/-- The address gives a `Forwarded` header. -/
def AcceptedAddr.Shown (http : HttpCrate) : AcceptedAddr → Prop
  | .tcp .. => True
  | .unix addr => ∃ path text value, addr.asPathname = some path ∧
      String.fromUTF8? path = some text ∧ http.fromStr text = some value

/-- The `http` crate takes visible ASCII text for a header value. -/
def HttpCrate.TakesVisible (http : HttpCrate) : Prop :=
  ∀ text : String, (∀ c ∈ text.toList, Visible c) → http.fromMaybeShared text = some text

section
variable {http : HttpCrate} {ctx : ConnectionContext}

theorem addXffHeader_shown (takes : http.TakesVisible) (shown : ctx.addr.Shown http) :
    ∃ value, ∀ headers, addXffHeader http headers ctx = headers.insert "forwarded" value := by
  cases haddr : ctx.addr with
  | tcp ip port =>
      refine ⟨ip.text, fun headers => ?_⟩
      simp only [addXffHeader, haddr, takes ip.text ip.visible_text]
  | unix addr =>
      rw [haddr] at shown
      obtain ⟨path, text, value, hpath, htext, hvalue⟩ := shown
      refine ⟨value, fun headers => ?_⟩
      simp only [addXffHeader, haddr, hpath, Option.bind_some, htext, hvalue]

theorem addXffHeader_silent (silent : ¬ ctx.addr.Shown http) (headers : HeaderMap) :
    addXffHeader http headers ctx = headers := by
  cases haddr : ctx.addr with
  | tcp ip port =>
      rw [haddr] at silent
      exact absurd trivial silent
  | unix addr =>
      rw [haddr] at silent
      simp only [addXffHeader, haddr]
      cases hpath : addr.asPathname with
      | none => rfl
      | some path =>
          rw [Option.bind_some]
          cases htext : String.fromUTF8? path with
          | none => rfl
          | some text =>
              cases hvalue : http.fromStr text with
              | none => simp only [hvalue]
              | some value => exact absurd ⟨path, text, value, hpath, htext, hvalue⟩ silent

/-- The headers that the routing handler leaves. -/
def routedHeaders (headers : HeaderMap) (host : String) : HeaderMap :=
  ((headers.remove "connection").remove "host").insert "host" host

theorem getAll_routed (headers : HeaderMap) (host name : String) :
    (routedHeaders headers host).getAll name =
      if name = "host" then [host] else if name = "connection" then []
      else headers.getAll name := by
  rw [routedHeaders]
  split
  · rename_i hname
    rw [hname, HeaderMap.getAll_insert_self]
  · rename_i hhost
    rw [HeaderMap.getAll_insert_of_ne _ _ _ hhost, HeaderMap.getAll_remove_of_ne _ _ hhost]
    split
    · rename_i hname
      rw [hname, HeaderMap.getAll_remove_self]
    · rename_i hconnection
      rw [HeaderMap.getAll_remove_of_ne _ _ hconnection]

/-- What is handed on, when the URI can be built. -/
theorem handedUpstream_uri {remote : Uri} {authority : String} {request : Request B}
    (version : request.version = .http10 ∨ request.version = .http11)
    (hauthority : remote.authority = some authority) :
    handedUpstream http (.uri remote) ctx request =
      (rewriteUri http remote authority request.uri).map fun uri =>
        { request with
          version := .http11
          uri
          headers := addXffHeader http
            (routedHeaders request.headers ((http.fromStr authority).getD "")) ctx } := by
  rw [handedUpstream_eq http _ ctx version]
  simp only [rewriteRequest, hauthority, Option.map_map]
  rfl

theorem getAll_forwarded (headers : HeaderMap) (host : String) :
    (routedHeaders headers host).getAll "forwarded" = headers.getAll "forwarded" := by
  rw [getAll_routed, if_neg (by decide), if_neg (by decide)]

variable {request request' : Request B} {remote : Uri} {authority : String}

/-- What is left of the difference after the routing is in the `Forwarded` headers. -/
theorem SameBut.routed (same : SameBut ["host", "connection", "forwarded"] request request')
    (host : String) {name : String} (hname : name ≠ "forwarded") :
    (routedHeaders request.headers host).getAll name =
      (routedHeaders request'.headers host).getAll name := by
  rw [getAll_routed, getAll_routed]
  split
  · rfl
  · split
    · rfl
    · exact same.headers name (by simp [*])

/-- The header of a shown address takes the place of what the clients sent. -/
theorem SameBut.shown (same : SameBut ["host", "connection", "forwarded"] request request')
    (takes : http.TakesVisible) (shown : ctx.addr.Shown http) (host name : String) :
    (addXffHeader http (routedHeaders request.headers host) ctx).getAll name =
      (addXffHeader http (routedHeaders request'.headers host) ctx).getAll name := by
  obtain ⟨value, hadd⟩ := addXffHeader_shown takes shown
  rw [hadd, hadd]
  by_cases hname : name = "forwarded"
  · rw [hname, HeaderMap.getAll_insert_self, HeaderMap.getAll_insert_self]
  · rw [HeaderMap.getAll_insert_of_ne _ _ _ hname, HeaderMap.getAll_insert_of_ne _ _ _ hname,
      same.routed host hname]

/-- Two HTTP/1 requests that differ at most in `Host`, `Connection` and
`Forwarded` headers are handed on alike exactly when the address of the client
gives a header, or the clients sent the same `Forwarded` headers, or neither is
handed on. -/
theorem handed_alike_iff (takes : http.TakesVisible)
    (version : request.version = .http10 ∨ request.version = .http11)
    (same : SameBut ["host", "connection", "forwarded"] request request')
    (hauthority : remote.authority = some authority) :
    Option.Rel (SameBut []) (handedUpstream http (.uri remote) ctx request)
        (handedUpstream http (.uri remote) ctx request') ↔
      ctx.addr.Shown http ∨
        request.headers.getAll "forwarded" = request'.headers.getAll "forwarded" ∨
        rewriteUri http remote authority request.uri = none := by
  have version' : request'.version = .http10 ∨ request'.version = .http11 := same.version ▸ version
  rw [handedUpstream_uri version hauthority, handedUpstream_uri version' hauthority, ← same.uri]
  generalize (http.fromStr authority).getD "" = host
  cases huri : rewriteUri http remote authority request.uri with
  | none => exact iff_of_true .none (.inr (.inr rfl))
  | some uri =>
      simp only [Option.map_some, Option.rel_some_some, reduceCtorEq, or_false]
      constructor
      · intro alike
        by_cases shown : ctx.addr.Shown http
        · exact .inl shown
        · have values := alike.headers "forwarded" (by simp)
          simp only [addXffHeader_silent shown, getAll_forwarded] at values
          exact .inr values
      · intro condition
        refine ⟨same.method, rfl, rfl, same.body, fun name _ => ?_⟩
        by_cases shown : ctx.addr.Shown http
        · exact same.shown takes shown host name
        · simp only [addXffHeader_silent shown]
          by_cases hname : name = "forwarded"
          · rw [hname, getAll_forwarded, getAll_forwarded, condition.resolve_left shown]
          · exact same.routed host hname

end

/-- Visible ASCII text and paths without a query. -/
def plainHttp : HttpCrate where
  fromStr text := if text.toList.all (Visible ·) then some text else none
  fromMaybeShared text := if text.toList.all (Visible ·) then some text else none
  buildUri authority scheme path := some ⟨some scheme, some authority, some ⟨path, none⟩⟩

def getRequest (headers : HeaderMap) : Request Unit :=
  ⟨"GET", ⟨none, none, some ⟨"/", none⟩⟩, .http11, headers, ()⟩

/-- A client on TCP that names itself. -/
theorem tcp_client_named :
    let remote : Uri := ⟨some "http", some "upstream:8080", some ⟨"/", none⟩⟩
    let ctx : ConnectionContext := ⟨.tcp (.v4 #v[10, 0, 0, 7]) 4000, some none⟩
    Option.Rel (SameBut [])
      (handedUpstream plainHttp (.uri remote) ctx (getRequest [("host", "a")]))
      (handedUpstream plainHttp (.uri remote) ctx
        (getRequest [("forwarded", "for=127.0.0.1"), ("host", "b"), ("connection", "close")])) := by
  intro remote ctx
  have hauthority : remote.authority = some "upstream:8080" := rfl
  have takes : plainHttp.TakesVisible := fun text visible =>
    if_pos (List.all_eq_true.mpr fun c hc => decide_eq_true (visible c hc))
  refine (handed_alike_iff takes (.inr rfl) ?_ hauthority).mpr (.inl trivial)
  refine ⟨rfl, rfl, rfl, rfl, fun name hname => ?_⟩
  simp only [List.mem_cons, List.not_mem_nil, or_false, not_or] at hname
  simp [getRequest, HeaderMap.getAll, Ne.symm hname.1, Ne.symm hname.2.1, Ne.symm hname.2.2]

/-- On an unnamed Unix socket the client's own `Forwarded` header goes on. -/
theorem unix_client_forges :
    let remote : Uri := ⟨some "http", some "upstream:8080", some ⟨"/", none⟩⟩
    let ctx : ConnectionContext := ⟨.unix .unnamed, some none⟩
    SameBut ["host", "connection", "forwarded"] (getRequest [])
        (getRequest [("forwarded", "for=127.0.0.1")]) ∧
      ¬ Option.Rel (SameBut [])
        (handedUpstream plainHttp (.uri remote) ctx (getRequest []))
        (handedUpstream plainHttp (.uri remote) ctx
          (getRequest [("forwarded", "for=127.0.0.1")])) := by
  intro remote ctx
  constructor
  · refine ⟨rfl, rfl, rfl, rfl, fun name hname => ?_⟩
    simp only [List.mem_cons, List.not_mem_nil, or_false, not_or] at hname
    simp [getRequest, HeaderMap.getAll, Ne.symm hname.2.2]
  · intro alike
    cases alike with
    | some same =>
        have values := same.headers "forwarded" (by simp)
        exact absurd values (by decide)

end Monolake.Http
