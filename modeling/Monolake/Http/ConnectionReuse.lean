import Monolake.Http.Message

/-!
The handler that decides whether the connection persists: requests go on as
HTTP/1.1 without a `Connection` header, and the response gets the header that
tells the client what the flag returned next to it tells the loop.
-/
namespace Monolake.Http

universe u v
variable {B E : Type u}

def eqIgnoreAsciiCase (a b : String) : Bool :=
  a.toList.map Char.toLower == b.toList.map Char.toLower

def isConnKeepalive (headers : HeaderMap) (version : Version) : Bool :=
  match version, headers.get "connection" with
  | .http10, some header => eqIgnoreAsciiCase header "Keep-Alive"
  | .http11, none => true
  | .http11, some header => !eqIgnoreAsciiCase header "close"
  | _, _ => false

/-- The monad carries the effects of the handler behind, and its errors. -/
def ConnectionReuseHandler.call {m : Type u → Type v} [Monad m]
    (inner : Request B → m (Response E × Bool)) (request : Request B) :
    m (Response E × Bool) := do
  let version := request.version
  let keepalive := isConnKeepalive request.headers version
  match version with
  | .http10 =>
      let request := { request with version := .http11 }
      let request := { request with headers := request.headers.remove "connection" }
      let (response, cont) ← inner request
      let cont := cont && keepalive
      let headers := response.parts.headers.remove "connection"
      let headers := if cont then headers.insert "connection" "Keep-Alive" else headers
      return ({ response with parts := { response.parts with headers, version } }, cont)
  | .http11 =>
      let request := { request with headers := request.headers.remove "connection" }
      let (response, cont) ← inner request
      let cont := cont && keepalive
      let headers := response.parts.headers.remove "connection"
      let headers := if !cont then headers.insert "connection" "close" else headers
      return ({ response with parts := { response.parts with headers } }, cont)
  | .http2 =>
      let (response, _) ← inner request
      return (response, true)
  | .http09 | .http3 =>
      let (response, _) ← inner request
      return (response, false)

/-- What the handler behind sees of an HTTP/1 request. -/
def Request.relayed (request : Request B) : Request B :=
  { request with version := .http11, headers := request.headers.remove "connection" }

/-- How the reply to an HTTP/1 request comes from what the handler behind gave. -/
structure Persists (request : Request B) (given reply : Response E × Bool) : Prop where
  cont_eq : reply.2 = (given.2 && isConnKeepalive request.headers request.version)
  reply_11 : request.version = .http11 →
    reply.1.parts.headers.getAll "connection" = if reply.2 then [] else ["close"]
  reply_10 : request.version = .http10 → reply.1.parts.version = .http10 ∧
    reply.1.parts.headers.getAll "connection" = if reply.2 then ["Keep-Alive"] else []
  others : ∀ name, name ≠ "connection" →
    reply.1.parts.headers.getAll name = given.1.parts.headers.getAll name

/-- The header that is set last is the only one of its name, and no other changes. -/
theorem getAll_connection (headers : HeaderMap) (set : Bool) (value : String) :
    let set_headers := if set then (headers.remove "connection").insert "connection" value
      else headers.remove "connection"
    (set_headers.getAll "connection" = if set then [value] else []) ∧
      ∀ name, name ≠ "connection" → set_headers.getAll name = headers.getAll name := by
  cases set with
  | true => exact ⟨by simp, fun name hname => by simp [hname]⟩
  | false => exact ⟨by simp, fun name hname => by simp [hname]⟩

/-- An HTTP/1 request goes to the handler behind once, relayed, whatever the
effects of that handler are. -/
theorem call_persists (request : Request B)
    (version : request.version = .http10 ∨ request.version = .http11) :
    ∃ resumed : Response E × Bool → Response E × Bool,
      (∀ given, Persists request given (resumed given)) ∧
      ∀ {m : Type u → Type v} [Monad m] (inner : Request B → m (Response E × Bool)),
        ConnectionReuseHandler.call inner request =
          inner request.relayed >>= fun given => pure (resumed given) := by
  refine ⟨fun given => ConnectionReuseHandler.call (m := Id) (fun _ => given) request, ?_, ?_⟩
  · intro given
    obtain ⟨method, uri, version', headers, body⟩ := request
    rcases version with rfl | rfl
    · have set := getAll_connection given.1.parts.headers
        (given.2 && isConnKeepalive headers .http10) "Keep-Alive"
      exact ⟨rfl, nofun, fun _ => ⟨rfl, set.1⟩, set.2⟩
    · have set := getAll_connection given.1.parts.headers
        (!(given.2 && isConnKeepalive headers .http11)) "close"
      refine ⟨rfl, fun _ => set.1.trans ?_, nofun, set.2⟩
      change _ = if given.2 && isConnKeepalive headers .http11 then [] else ["close"]
      cases given.2 && isConnKeepalive headers .http11 <;> rfl
  · intro m _ inner
    obtain ⟨method, uri, version', headers, body⟩ := request
    rcases version with rfl | rfl <;> rfl

end Monolake.Http
