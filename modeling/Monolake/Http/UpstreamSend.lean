import Monolake.Http.Message

/-!
The two ways to an upstream, over plain TCP and over TLS: resolve the address,
get a connection, send the request. What the connectors and the connections
answer are parameters.
-/
namespace Monolake.Http

universe u
variable {K L B Err E : Type u}

def badGateway : Nat := 502

/-- A connection of either protocol, by the answers of `send_request`. -/
inductive HttpConnection (B Err E : Type u) where
  | http1 (sendRequest : Request B → Except Err (Response E))
  | http2 (sendRequest : Request B → Except Err (Response E))

def HttpConnection.sendRequest : HttpConnection B Err E → Request B → Except Err (Response E)
  | .http1 sendRequest | .http2 sendRequest => sendRequest

/-- What awaiting a connector comes to. `unfinished` is no result within the
connect timeout, or none at all where no timeout is set. -/
inductive Connecting (B Err E : Type u) where
  | connected (conn : HttpConnection B Err E)
  | failed (e : Err)
  | unfinished

structure HttpUpstreamTimeout where
  connectTimeout : Option Nat
  readTimeout : Option Nat

/-- The connectors of an upstream handler, and the resolution of their keys from
a URI: `host`, `port` and `toSocketAddrs` for the plain one, `tlsKey` for the
other. -/
structure UpstreamHandler (K L B Err E : Type u) where
  host : Uri → Option String
  port : Uri → Option Nat
  toSocketAddrs : String → Nat → Except Err (List K)
  tlsKey : Uri → Except Err L
  httpConnector : K → Connecting B Err E
  httpsConnector : L → Connecting B Err E
  httpUpstreamTimeout : HttpUpstreamTimeout

/-- The request that went to a connection, if one did, and what is returned. -/
structure Exchange (B E : Type u) where
  request : Option (Request B)
  returned : Response E × Bool

namespace Exchange

def refused (statusCode : Nat) : Exchange B E :=
  { request := none, returned := (generateResponse statusCode true, true) }

end Exchange

/-- The common end of both ways. A bad gateway does not affect the inbound
connection. -/
def HttpConnection.exchange (conn : HttpConnection B Err E) (request : Request B) :
    Exchange B E :=
  match conn.sendRequest request with
  | .ok response => { request := some request, returned := (response, true) }
  | .error _ => { request := some request, returned := (generateResponse badGateway false, true) }

namespace UpstreamHandler

/-- `none` when the connector is awaited for ever. -/
def sendHttpRequest (self : UpstreamHandler K L B Err E) (request : Request B) :
    Option (Exchange B E) :=
  match self.host request.uri with
  | none => some (.refused badRequest)
  | some host =>
      match self.toSocketAddrs host ((self.port request.uri).getD 80) with
      | .error _ | .ok [] => some (.refused badRequest)
      | .ok (key :: _) =>
          match self.httpConnector key with
          | .unfinished => none
          | .failed _ => some (.refused badGateway)
          | .connected conn =>
              let request :=
                match conn with
                | .http1 _ => { request with version := .http11 }
                | .http2 _ => { request with
                    version := .http2
                    headers := request.headers.remove "host" }
              some (conn.exchange request)

/-- `none` when the connector is awaited for ever. -/
def sendHttpsRequest (self : UpstreamHandler K L B Err E) (request : Request B) :
    Option (Exchange B E) :=
  match self.tlsKey request.uri with
  | .error _ => some (.refused badRequest)
  | .ok key =>
      match self.httpsConnector key, self.httpUpstreamTimeout.connectTimeout with
      | .unfinished, some _ => some (.refused badGateway)
      | .unfinished, none => none
      | .failed _, _ => some (.refused badGateway)
      | .connected conn, _ => some (conn.exchange request)

end UpstreamHandler

/-- What the two ways have in common when they treat a request alike. -/
structure TreatedAlike (timeout : HttpUpstreamTimeout) (outcome : Connecting B Err E)
    (plain tls : Option (Exchange B E)) : Prop where
  unfinished : outcome = .unfinished → timeout.connectTimeout ≠ none →
    ∀ way ∈ [plain, tls], way.map (·.returned.1.parts.status) = some badGateway
  http1 : ∀ send, outcome = .connected (.http1 send) →
    ∀ way ∈ [plain, tls], ∃ exchange request, way = some exchange ∧
      exchange.request = some request ∧ request.version = .http11
  http2 : ∀ send, outcome = .connected (.http2 send) →
    ∀ way ∈ [plain, tls], ∃ exchange request, way = some exchange ∧
      exchange.request = some request ∧ request.version = .http2 ∧
        request.headers.getAll "host" = []
  returned : plain.map (fun way => (way.returned.1.parts.status, way.returned.2)) =
    tls.map fun way => (way.returned.1.parts.status, way.returned.2)

/-- The requests and outcomes that do not tell the two ways apart. -/
def Alike (timeout : HttpUpstreamTimeout) (request : Request B) : Connecting B Err E → Prop
  | .connected (.http1 _) => request.version = .http11
  | .connected (.http2 _) => request.version = .http2 ∧ request.headers.getAll "host" = []
  | .failed _ => True
  | .unfinished => timeout.connectTimeout = none

theorem exchange_request (conn : HttpConnection B Err E) (request : Request B) :
    (conn.exchange request).request = some request := by
  rw [HttpConnection.exchange]
  split <;> rfl

/-- The request that went to the connection is the one it was given. -/
theorem exchange_sent {conn : HttpConnection B Err E} {request sent : Request B}
    {exchange : Exchange B E} (hway : some (conn.exchange request) = some exchange)
    (hsent : exchange.request = some sent) : sent = request := by
  rw [← Option.some.inj hway, exchange_request] at hsent
  exact (Option.some.inj hsent).symm

section
variable {self : UpstreamHandler K L B Err E} {request : Request B} {host : String} {key : K}
  {keys : List K} {tlsKey : L} {outcome : Connecting B Err E}

theorem sendHttpRequest_resolved (hhost : self.host request.uri = some host)
    (haddrs : self.toSocketAddrs host ((self.port request.uri).getD 80) = .ok (key :: keys)) :
    self.sendHttpRequest request =
      match self.httpConnector key with
      | .unfinished => none
      | .failed _ => some (.refused badGateway)
      | .connected (.http1 send) =>
          some ((HttpConnection.http1 send).exchange { request with version := .http11 })
      | .connected (.http2 send) =>
          some ((HttpConnection.http2 send).exchange
            { request with version := .http2, headers := request.headers.remove "host" }) := by
  simp only [UpstreamHandler.sendHttpRequest, hhost, haddrs]
  cases self.httpConnector key with
  | unfinished | failed => rfl
  | connected conn => cases conn <;> rfl

theorem sendHttpsRequest_resolved (hkey : self.tlsKey request.uri = .ok tlsKey) :
    self.sendHttpsRequest request =
      match self.httpsConnector tlsKey with
      | .unfinished =>
          self.httpUpstreamTimeout.connectTimeout.map fun _ => .refused badGateway
      | .failed _ => some (.refused badGateway)
      | .connected conn => some (conn.exchange request) := by
  simp only [UpstreamHandler.sendHttpsRequest, hkey]
  cases self.httpsConnector tlsKey with
  | unfinished => cases self.httpUpstreamTimeout.connectTimeout <;> rfl
  | failed | connected => rfl

/-- When both addresses resolve and both connectors answer alike, the two ways
treat a request alike exactly when neither the version and `Host` header of the
request nor a connect that hangs tells them apart. -/
theorem treated_alike_iff (hhost : self.host request.uri = some host)
    (haddrs : self.toSocketAddrs host ((self.port request.uri).getD 80) = .ok (key :: keys))
    (hkey : self.tlsKey request.uri = .ok tlsKey)
    (plain : self.httpConnector key = outcome) (tls : self.httpsConnector tlsKey = outcome) :
    TreatedAlike self.httpUpstreamTimeout outcome (self.sendHttpRequest request)
        (self.sendHttpsRequest request) ↔
      Alike self.httpUpstreamTimeout request outcome := by
  rw [sendHttpRequest_resolved hhost haddrs, sendHttpsRequest_resolved hkey, plain, tls]
  cases outcome with
  | unfinished =>
      rw [Alike]
      constructor
      · intro alike
        by_contra hset
        have status := alike.unfinished rfl hset none (.head _)
        cases status
      · intro unset
        rw [unset]
        exact ⟨fun _ hset => absurd unset hset, nofun, nofun, rfl⟩
  | failed e => exact iff_of_true ⟨nofun, nofun, nofun, rfl⟩ trivial
  | connected conn =>
      cases conn with
      | http1 send =>
          rw [Alike]
          constructor
          · intro alike
            obtain ⟨exchange, sent, hway, hsent, version⟩ :=
              alike.http1 send rfl _ (.tail _ (.head _))
            rw [← exchange_sent hway hsent, version]
          · intro version
            have same : { request with version := .http11 } = request := by rw [← version]
            rw [same]
            refine ⟨nofun, fun _ _ way hway => ?_, nofun, rfl⟩
            simp only [List.mem_cons, List.not_mem_nil, or_false, or_self] at hway
            exact ⟨_, request, hway, exchange_request _ request, version⟩
      | http2 send =>
          rw [Alike]
          constructor
          · intro alike
            obtain ⟨exchange, sent, hway, hsent, version, host⟩ :=
              alike.http2 send rfl _ (.tail _ (.head _))
            obtain rfl := exchange_sent hway hsent
            exact ⟨version, host⟩
          · rintro ⟨version, host⟩
            have same : { request with
                version := .http2, headers := request.headers.remove "host" } = request := by
              rw [HeaderMap.remove_of_absent host, ← version]
            rw [same]
            refine ⟨nofun, nofun, fun _ _ way hway => ?_, rfl⟩
            simp only [List.mem_cons, List.not_mem_nil, or_false, or_self] at hway
            exact ⟨_, request, hway, exchange_request _ request, version, host⟩

end

/-- Both connectors answer `outcome` for the only key there is. -/
def bothWays (timeout : Option Nat) (outcome : Connecting Unit String String) :
    UpstreamHandler Unit Unit Unit String String where
  host _ := some "upstream"
  port _ := none
  toSocketAddrs _ _ := .ok [()]
  tlsKey _ := .ok ()
  httpConnector _ := outcome
  httpsConnector _ := outcome
  httpUpstreamTimeout := { connectTimeout := timeout, readTimeout := none }

def answering (status : Nat) : Request Unit → Except String (Response String) :=
  fun _ => .ok ⟨⟨status, .http11, []⟩, .fixedNone⟩

/-- An HTTP/1.1 request over HTTP/1 connections. -/
theorem http11_treated_alike :
    let request : Request Unit := ⟨"GET", ⟨none, none, none⟩, .http11, [("host", "upstream")], ()⟩
    let outcome := Connecting.connected (.http1 (answering 200))
    let self := bothWays (some 5) outcome
    TreatedAlike self.httpUpstreamTimeout outcome (self.sendHttpRequest request)
      (self.sendHttpsRequest request) := by
  intro request outcome self
  have hhost : self.host request.uri = some "upstream" := rfl
  have haddrs : self.toSocketAddrs "upstream" ((self.port request.uri).getD 80) = .ok [()] := rfl
  have hkey : self.tlsKey request.uri = .ok () := rfl
  exact (treated_alike_iff hhost haddrs hkey rfl rfl).mpr rfl

/-- An HTTP/2 request keeps its version on an HTTP/1 connection over TLS; and a
connect that hangs is given up over TLS only. -/
theorem ways_differ :
    (let request : Request Unit := ⟨"GET", ⟨none, none, none⟩, .http2, [], ()⟩
      let outcome := Connecting.connected (.http1 (answering 200))
      let self := bothWays none outcome
      ¬ TreatedAlike self.httpUpstreamTimeout outcome (self.sendHttpRequest request)
        (self.sendHttpsRequest request)) ∧
    (let request : Request Unit := ⟨"GET", ⟨none, none, none⟩, .http11, [], ()⟩
      let self := bothWays (some 5) .unfinished
      ¬ TreatedAlike self.httpUpstreamTimeout (.unfinished : Connecting Unit String String)
        (self.sendHttpRequest request) (self.sendHttpsRequest request)) := by
  constructor
  · intro request outcome self alike
    obtain ⟨exchange, sent, hway, hsent, version⟩ := alike.http1 _ rfl _ (.tail _ (.head _))
    obtain rfl := Option.some.inj hway
    obtain rfl := Option.some.inj hsent
    cases version
  · intro request self alike
    cases alike.unfinished rfl nofun _ (.head _)

end Monolake.Http
