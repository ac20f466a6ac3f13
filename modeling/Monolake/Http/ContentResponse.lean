import Monolake.Http.ConnectionOptions
import Monolake.Http.Content

/-!
What the content handler makes of responses. The header of the client goes to the encoder
as it is, and what has been encoded goes out under the headers of what was not.
-/
namespace Monolake.Http

universe u v
variable {B E F : Type u}

namespace ContentHandler

/-- The second half of `call`, after the handler behind: an error is answered with a 500. -/
def encodeResponse (responseCodec : BodyCodec (HttpBody E) F) (request : Request B)
    (response : Response E) : Except F (Response E) :=
  if contentLength request.headers = 0 ∨ contentEncoding request.headers = "identity" then
    .ok response
  else if acceptEncoding request.headers ≠ "identity" then
    match responseCodec.encodeContent response.body (acceptEncoding request.headers) with
    | .ok encodedData =>
        .ok { response with body := responseCodec.fixedBody (some encodedData) }
    | .error e => .error e
  else .ok response

def answered : Except F (Response E) → Response E
  | .ok response => response
  | .error _ => generateResponse internalServerError false

/-- When the handler behind is called, its response is encoded or not, and the flag is set. -/
theorem call_encodeResponse {requestCodec : BodyCodec B F}
    {responseCodec : BodyCodec (HttpBody E) F} {request passed : Request B}
    (reached : handed requestCodec responseCodec request = some passed)
    {m : Type u → Type v} [Monad m] (inner : Request B → m (Response E × Bool)) :
    call requestCodec responseCodec inner request = inner passed >>= fun given =>
      pure (answered (encodeResponse responseCodec request given.1), true) := by
  by_cases direct : contentLength request.headers = 0 ∨
      contentEncoding request.headers = "identity"
  · simp only [handed, call, if_pos direct] at reached
    obtain rfl := Option.some.inj reached
    simp only [call, encodeResponse, if_pos direct]
    rfl
  · cases decoded : requestCodec.decodeContent request.body (contentEncoding request.headers) with
    | error e =>
        simp only [handed, call, if_neg direct, decoded] at reached
        cases reached
    | ok data =>
        obtain ⟨length, encoding⟩ := not_or.mp direct
        rw [handed_decoded ⟨length, encoding, decoded⟩] at reached
        obtain rfl := Option.some.inj reached
        simp only [call, encodeResponse, if_neg direct, decoded]
        congr 1
        funext given
        obtain ⟨response, cont⟩ := given
        dsimp only
        split
        · cases responseCodec.encodeContent response.body (acceptEncoding request.headers) <;> rfl
        · rfl

section
variable {requestCodec : BodyCodec B F} {responseCodec : BodyCodec (HttpBody E) F}
  {request : Request B}

end

/-- The two bytes of `gzipped` are compressed as they are; other content only gets a mark. -/
def pack (b : Bytes) : Bytes := if b = [0x68, 0x69] then gzipped else 0 :: b

def sentBytes (body : HttpBody String) : Bytes := body.chunks.flatten

/-- The encoder takes `gzip` out of a list, and leaves a body for which it finds no coding. -/
def gzipResponseCodec : BodyCodec (HttpBody String) String where
  decodeContent _ _ := .error "not implemented"
  encodeContent body encoding :=
    if "gzip" ∈ lineOptions encoding then .ok (pack (sentBytes body)) else .ok (sentBytes body)
  fixedBody data := { streamHint := .fixed, chunks := data.toList, failure := none }

def greeting : Response String :=
  ⟨⟨200, .http11, [("content-length", "2")]⟩, ⟨.fixed, [[0x68, 0x69]], none⟩⟩

end ContentHandler

end Monolake.Http
