import Monolake.Common.DetectService
import Monolake.Http.Upstream
import Monolake.ProxyProtocol.Conservation

/-!
An accepted connection on its way to the HTTP core service: the context with the peer, the
PROXY header, TLS, and the detection of HTTP/2. The TLS acceptors are parameters; what they
accept is again a reader.
-/
namespace Monolake.ProxyProtocol

universe u
open Foundation
variable {A4 A6 : Type u}

/-- `inner`: the service behind is called with this address and this reader. -/
inductive Handed (A4 A6 : Type u) where
  | inner (remoteAddr : Option (RemoteAddr A4 A6)) (io : Prefixed SourceStream UInt8)
  | failed (e : ParseError)
  | panicked

def Handed.outcome : Handed A4 A6 → Outcome A4 A6
  | .inner remoteAddr io => .inner remoteAddr (Reader.yields io)
  | .failed e => .failed e
  | .panicked => .panicked

/-- The unread part of the buffer is put in front of the stream. -/
def handInner (parsed : Option (Except ParseError (ProxyHeader A4 A6 × Nat)))
    (buffer : List UInt8) (stream : SourceStream) : Handed A4 A6 :=
  match parsed with
  | some (.ok (header, idx)) =>
      .inner header.remoteAddr { first := buffer.drop idx, behind := stream }
  | _ => .inner none { first := buffer, behind := stream }

/-- `call`, with the reader that the service behind gets. -/
def hand (parse : Parse A4 A6) (fuel : Nat) (stream : SourceStream) : Option (Handed A4 A6) :=
  let (buffer, stream) := stream.read maxHeaderSize
  match buffer[0]? with
  | none => some .panicked  -- `buffer[0]` of an empty buffer
  | some first =>
      match targetHeader first buffer with
      | none => some (handInner none buffer stream)
      | some target =>
          (headerLoop parse target fuel buffer stream).map fun
            | (.returned e, _, _) => .failed e
            | (.broke parsed, buffer, stream) => handInner (some parsed) buffer stream

theorem handInner_outcome (parsed : Option (Except ParseError (ProxyHeader A4 A6 × Nat)))
    (buffer : List UInt8) (stream : SourceStream) :
    (handInner parsed buffer stream).outcome = callInner parsed buffer stream := by
  obtain none | ⟨e | ⟨header, idx⟩⟩ := parsed <;> rfl

theorem hand_outcome (parse : Parse A4 A6) (fuel : Nat) (stream : SourceStream) :
    (hand parse fuel stream).map Handed.outcome = call parse fuel stream := by
  rw [hand, call]
  generalize stream.read maxHeaderSize = read
  obtain ⟨buffer, behind⟩ := read
  dsimp only
  cases buffer[0]? with
  | none => rfl
  | some first =>
      dsimp only
      cases targetHeader first buffer with
      | none => exact congrArg some (handInner_outcome none buffer behind)
      | some target =>
          rw [Option.map_map]
          congr 1
          funext exit
          obtain ⟨e | parsed, buffer', behind'⟩ := exit
          · exact handInner_outcome _ _ _
          · rfl

end Monolake.ProxyProtocol

namespace Monolake.Http

universe u v w
open Foundation Common ProxyProtocol
open Reader (yields)

/-- Addresses with their ports. -/
abbrev SocketAddrV4 := Vector UInt8 4 × UInt16
abbrev SocketAddrV6 := Vector UInt16 8 × UInt16

/-- `AcceptedAddr::from(SocketAddr::from(source))` -/
def acceptedFrom : RemoteAddr SocketAddrV4 SocketAddrV6 → AcceptedAddr
  | .ipv4 (ip, port) => .tcp (.v4 ip) port
  | .ipv6 (ip, port) => .tcp (.v6 ip) port

/-- The acceptors take a connection `Conn` and make TLS streams of it. -/
inductive UnifiedTlsService (Conn T₁ T₂ : Type) where
  | rustls (accept : Conn → Option T₁)
  | native (accept : Conn → Option T₂)
  | none

/-- What becomes of a connection before the core service looks at it; there it is served
with this context, as HTTP/2 or not, and its bytes are these. -/
inductive ConnectionEnd where
  | served (useH2 : Bool) (bytes : List UInt8) (ctx : ConnectionContext)
  | headerFailed (e : ParseError)
  | tlsFailed
  | ioFailed
  | panicked

section
variable {R E : Type} [Reader R UInt8 E]

/-- `H2Detect` in front of `HttpCoreService`, with as many rounds as the preface can need. -/
def h2Detect (io : R) (ctx : ConnectionContext) : Option ConnectionEnd :=
  (detectService (h2Detector.detectOn (preface.length + 1) 0 [])
    (fun useH2 io ctx => (.ok (useH2, yields io, ctx) : Except Empty _)) io ctx).map fun
    | .ok (useH2, bytes, ctx) => .served useH2 bytes ctx
    | .error (.io _) => .ioFailed

end

section
variable {T₁ T₂ E₁ E₂ : Type} [Reader T₁ UInt8 E₁] [Reader T₂ UInt8 E₂]

/-- The stack of an accepted connection, from `ContextService` to `HttpCoreService`. -/
def httpConnection (parse : Parse SocketAddrV4 SocketAddrV6) (fuel : Nat)
    (tls : UnifiedTlsService (Prefixed SourceStream UInt8) T₁ T₂) (stream : SourceStream)
    (addr : AcceptedAddr) : Option ConnectionEnd :=
  let ctx : ConnectionContext := { peerAddr := addr, remoteAddr := none }
  (hand parse fuel stream).bind fun
    | .panicked => some .panicked
    | .failed e => some (.headerFailed e)
    | .inner remoteAddr io =>
        let ctx := { ctx with remoteAddr := some (remoteAddr.map acceptedFrom) }
        match tls with
        | .rustls accept =>
            match accept io with
            | some io => h2Detect io ctx
            | none => some .tlsFailed
        | .native accept =>
            match accept io with
            | some io => h2Detect io ctx
            | none => some .tlsFailed
        | .none => h2Detect io ctx

/-- The bytes behind TLS. -/
def UnifiedTlsService.Plain (tls : UnifiedTlsService (Prefixed SourceStream UInt8) T₁ T₂)
    (io : Prefixed SourceStream UInt8) (bytes : List UInt8) : Prop :=
  match tls with
  | .rustls accept => ∃ tlsIo, accept io = some tlsIo ∧ yields tlsIo = bytes
  | .native accept => ∃ tlsIo, accept io = some tlsIo ∧ yields tlsIo = bytes
  | .none => yields io = bytes

end

section
variable {R E : Type} [Reader R UInt8 E] [LawfulReader R UInt8 E]

/-- The detection ends, and serves the connection as its bytes say unless a read fails. -/
theorem h2Detect_spec (io : R) (ctx : ConnectionContext) :
    Nonempty E ∧ h2Detect io ctx = some .ioFailed ∨
      ∃ useH2, h2Detect io ctx = some (.served useH2 (yields io) ctx) ∧
        (useH2 = true ↔ preface <+: yields io) := by
  obtain ⟨out, runs, detects⟩ := prefix_detectedOn h2Detector io
  have detected : h2Detector.detectOn (preface.length + 1) 0 [] io = some out := runs
  rw [h2Detect, detectService, detected]
  cases out with
  | error e => exact .inl ⟨⟨e⟩, rfl⟩
  | ok out =>
      obtain ⟨useH2, io'⟩ := out
      obtain ⟨answer, replays⟩ := detects useH2 io' rfl
      refine .inr ⟨useH2, ?_, answer⟩
      rw [← replays]
      rfl

theorem h2Detect_served {io : R} {ctx ctx' : ConnectionContext} {useH2 : Bool}
    {bytes : List UInt8} (h : h2Detect io ctx = some (.served useH2 bytes ctx')) :
    ctx' = ctx ∧ yields io = bytes ∧ (useH2 = true ↔ preface <+: bytes) := by
  obtain ⟨-, failed⟩ | ⟨useH2', served, answer⟩ := h2Detect_spec io ctx
  · rw [failed] at h
    cases h
  · rw [served] at h
    cases h
    exact ⟨rfl, rfl, answer⟩

end

section
variable {T₁ T₂ E₁ E₂ : Type} [Reader T₁ UInt8 E₁] [Reader T₂ UInt8 E₂]
  [LawfulReader T₁ UInt8 E₁] [LawfulReader T₂ UInt8 E₂]
  {parse : Parse SocketAddrV4 SocketAddrV6} {fuel : Nat}
  {tls : UnifiedTlsService (Prefixed SourceStream UInt8) T₁ T₂} {stream : SourceStream}
  {addr : AcceptedAddr}

/-- A connection that is served was handed on by the PROXY service and by TLS. -/
theorem httpConnection_served {useH2 : Bool} {bytes : List UInt8} {ctx : ConnectionContext}
    (h : httpConnection parse fuel tls stream addr = some (.served useH2 bytes ctx)) :
    ∃ remoteAddr io, hand parse fuel stream = some (.inner remoteAddr io) ∧
      ctx = { peerAddr := addr, remoteAddr := some (remoteAddr.map acceptedFrom) } ∧
      tls.Plain io bytes ∧ (useH2 = true ↔ preface <+: bytes) := by
  obtain ⟨handed, hhand, h⟩ := Option.bind_eq_some_iff.mp h
  cases handed with
  | panicked | failed e => cases h
  | inner remoteAddr io =>
      refine ⟨remoteAddr, io, hhand, ?_⟩
      cases tls with
      | rustls accept =>
          dsimp only at h
          cases accepted : accept io with
          | none => simp [accepted] at h
          | some tlsIo =>
              simp only [accepted] at h
              obtain ⟨rfl, plain, answer⟩ := h2Detect_served h
              exact ⟨rfl, ⟨tlsIo, accepted, plain⟩, answer⟩
      | native accept =>
          dsimp only at h
          cases accepted : accept io with
          | none => simp [accepted] at h
          | some tlsIo =>
              simp only [accepted] at h
              obtain ⟨rfl, plain, answer⟩ := h2Detect_served h
              exact ⟨rfl, ⟨tlsIo, accepted, plain⟩, answer⟩
      | none =>
          obtain ⟨rfl, plain, answer⟩ := h2Detect_served h
          exact ⟨rfl, plain, answer⟩

omit [LawfulReader T₁ UInt8 E₁] [LawfulReader T₂ UInt8 E₂] in
/-- Without TLS the connection is served as soon as the PROXY service hands it on. -/
theorem httpConnection_plain {remoteAddr : Option (RemoteAddr SocketAddrV4 SocketAddrV6)}
    {handed : List UInt8} (h : call parse fuel stream = some (.inner remoteAddr handed)) :
    ∃ useH2 ctx, httpConnection parse fuel
      (.none : UnifiedTlsService (Prefixed SourceStream UInt8) T₁ T₂) stream addr =
        some (.served useH2 handed ctx) := by
  rw [← hand_outcome] at h
  obtain ⟨handed', hhand, outcome⟩ := Option.map_eq_some_iff.mp h
  cases handed' with
  | panicked | failed e => cases outcome
  | inner remoteAddr' io =>
      cases outcome
      rw [httpConnection, hhand]
      obtain ⟨⟨e⟩, -⟩ | ⟨useH2, served, -⟩ := h2Detect_spec io
        { peerAddr := addr, remoteAddr := some (remoteAddr.map acceptedFrom) }
      · exact e.elim
      · exact ⟨useH2, _, served⟩

/-- Where the client of a connection is: the source of the PROXY header that was accepted, if
it has an IP source, and else the peer. -/
def clientAddr (addr : AcceptedAddr) (header : Option (ProxyHeader SocketAddrV4 SocketAddrV6)) :
    AcceptedAddr :=
  ((header.bind ProxyHeader.remoteAddr).map acceptedFrom).getD addr

/-- Of any version, a request that is handed on has been given the address. -/
theorem handedUpstream_forwarded {B : Type} {http : HttpCrate} {endpoint : Endpoint}
    {ctx : ConnectionContext} {request out : Request B}
    (h : handedUpstream http endpoint ctx request = some out) :
    ∃ headers, out.headers = addXffHeader http headers ctx := by
  have rewritten : ∀ before : Request B,
      (rewriteRequest http before endpoint).map (fun request =>
        { request with headers := addXffHeader http request.headers ctx }) = some out →
      ∃ headers, out.headers = addXffHeader http headers ctx := by
    intro before given
    obtain ⟨after, -, rfl⟩ := Option.map_eq_some_iff.mp given
    exact ⟨_, rfl⟩
  by_cases version : request.version = .http10 ∨ request.version = .http11
  · rw [handedUpstream_eq http endpoint ctx version] at h
    exact rewritten _ h
  · refine rewritten request ?_
    rw [← h]
    obtain ⟨method, uri, version', headers, body⟩ := request
    cases version' with
    | http10 => exact absurd (.inl rfl) version
    | http11 => exact absurd (.inr rfl) version
    | http2 | http09 | http3 =>
        simp only [handedUpstream, ConnectionReuseHandler.call, RewriteHandler.call]
        cases rewriteRequest http _ endpoint with
        | none => rfl
        | some request =>
            simp only [UpstreamHandler.call, ite_self]
            rfl

/-- A connection is served on the bytes behind its PROXY header, if one is accepted, and behind
TLS: as HTTP/2 exactly if they start with the preface, however they arrive. Every request of a TCP
client goes to its upstream with one `Forwarded` header, which names the source of the PROXY
header, or else the peer, whatever the client has sent. Without TLS, nothing but the PROXY service
can keep the connection from being served. -/
theorem connection_served (within : ParsesWithin parse) {http : HttpCrate}
    (takes : http.TakesVisible) :
    (∀ useH2 bytes ctx,
      httpConnection parse fuel tls stream addr = some (.served useH2 bytes ctx) →
      (useH2 = true ↔ preface <+: bytes) ∧
      ∃ (header : Option (ProxyHeader SocketAddrV4 SocketAddrV6 × Nat)) (io : _),
        (∀ accepted, .ok accepted ∈ answers parse fuel stream ↔ header = some accepted) ∧
        yields io = stream.rest.drop ((header.map Prod.snd).getD 0) ∧ tls.Plain io bytes ∧
        ∀ ip port, clientAddr addr (header.map Prod.fst) = .tcp ip port →
          ∀ (endpoint : Endpoint) (request out : Request (List UInt8)),
            handedUpstream http endpoint ctx request = some out →
            out.headers.getAll "forwarded" = [ip.text]) ∧
    ∀ remoteAddr handed, call parse fuel stream = some (.inner remoteAddr handed) →
      ∃ useH2 ctx, httpConnection parse fuel
        (.none : UnifiedTlsService (Prefixed SourceStream UInt8) T₁ T₂) stream addr =
          some (.served useH2 handed ctx) := by
  refine ⟨fun useH2 bytes ctx h => ?_, fun remoteAddr handed h => httpConnection_plain h⟩
  obtain ⟨remoteAddr, io, hhand, rfl, plain, answer⟩ := httpConnection_served h
  refine ⟨answer, ?_⟩
  have called : call parse fuel stream = some (.inner remoteAddr (yields io)) := by
    rw [← hand_outcome, hhand]
    rfl
  have named : ∀ ip port, (remoteAddr.map acceptedFrom).getD addr = .tcp ip port →
      ∀ (endpoint : Endpoint) (request out : Request (List UInt8)),
        handedUpstream http endpoint
          { peerAddr := addr, remoteAddr := some (remoteAddr.map acceptedFrom) } request =
            some out →
        out.headers.getAll "forwarded" = [ip.text] := by
    intro ip port client endpoint request out handed
    obtain ⟨headers, same⟩ := handedUpstream_forwarded handed
    simp only [same, addXffHeader, ConnectionContext.addr, Option.bind_some, id, client,
      takes ip.text ip.visible_text, HeaderMap.getAll_insert_self]
  obtain ⟨header, k, only, rfl, hk, rest⟩ | ⟨none_accepted, rfl, rest⟩ := call_inner within called
  · refine ⟨some (header, k), io, fun accepted => ?_, rest, plain, named⟩
    rw [only, Option.some.injEq]
    exact eq_comm
  · refine ⟨none, io, fun accepted => ?_, rest, plain, named⟩
    exact iff_of_false (none_accepted accepted) (Option.some_ne_none _).symm

end

/-- One PROXY line is known. -/
def parseKnownLine : Parse SocketAddrV4 SocketAddrV6 := fun buffer =>
  if v1Line <+: buffer then
    .ok (.version1 (.ipv4 (#v[1, 2, 3, 4], 9) (#v[5, 6, 7, 8], 9)), v1Line.length)
  else .error (.version1 .unexpectedEof)

theorem parseKnownLine_within : ParsesWithin parseKnownLine := by
  intro buffer header idx h
  rw [parseKnownLine] at h
  split at h
  · rename_i complete
    obtain ⟨-, rfl⟩ := Prod.mk.inj (Except.ok.inj h)
    exact complete.length_le
  · cases h

theorem plainHttp_takesVisible : plainHttp.TakesVisible := fun _ visible =>
  if_pos (List.all_eq_true.mpr fun c hc => decide_eq_true (visible c hc))

/-- A proxy in front, and an HTTP/2 client behind it. -/
theorem proxied_client_served :
    let stream : SourceStream := ⟨v1Line ++ preface, fun _ => 20⟩
    let tls : UnifiedTlsService (Prefixed SourceStream UInt8) SourceStream SourceStream := .none
    let addr : AcceptedAddr := .tcp (.v4 #v[10, 0, 0, 1]) 4000
    ∃ ctx, httpConnection parseKnownLine 4 tls stream addr = some (.served true preface ctx) ∧
      ∀ (endpoint : Endpoint) (request out : Request (List UInt8)),
        handedUpstream plainHttp endpoint ctx request = some out →
        out.headers.getAll "forwarded" = ["1.2.3.4"] := by
  intro stream tls addr
  obtain ⟨safe, live⟩ := @connection_served SourceStream SourceStream Empty Empty _ _ _ _
    parseKnownLine 4 tls stream addr parseKnownLine_within plainHttp plainHttp_takesVisible
  have called : call parseKnownLine 4 stream =
      some (.inner (some (.ipv4 (#v[1, 2, 3, 4], 9))) preface) := by rfl
  have accepted : .ok (.version1 (.ipv4 (#v[1, 2, 3, 4], 9) (#v[5, 6, 7, 8], 9)), v1Line.length) ∈
      answers parseKnownLine 4 stream := .tail _ (.head _)
  obtain ⟨useH2, ctx, served⟩ := live _ _ called
  obtain ⟨answer, header, io, only, -, -, named⟩ := safe _ _ _ served
  obtain rfl : useH2 = true := answer.mpr (List.prefix_refl preface)
  obtain rfl := (only _).mp accepted
  exact ⟨ctx, served, named _ _ rfl⟩

end Monolake.Http
