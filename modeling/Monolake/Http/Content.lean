import Monolake.Http.Address
import Monolake.Http.Message

/-!
The handler that decodes the bodies of requests and encodes those of responses.
A decoded body goes on under the headers of the encoded one. Encoding and decoding
are parameters, `dec es b` the content that `b` denotes under the encodings `es`.
-/
namespace Monolake.Http

universe u v
variable {B E F : Type u}

/-- `HeaderValue::to_str` -/
def toStr (value : String) : Option String :=
  if value.toList.all (fun c => Visible c ∨ c = '\t') then some value else none

/-- `parse::<usize>` -/
def parseUsize (text : String) : Option Nat :=
  let digits :=
    match text.toList with
    | '+' :: rest => rest
    | digits => digits
  if digits.isEmpty ∨ ¬ digits.all Char.isDigit then none
  else
    let n := digits.foldl (fun n c => 10 * n + (c.toNat - '0'.toNat)) 0
    if n < UInt64.size then some n else none

/-- The traits `BodyEncodeExt` and `FixedBody`. -/
structure BodyCodec (B F : Type u) where
  decodeContent : B → String → Except F Bytes
  encodeContent : B → String → Except F Bytes
  fixedBody : Option Bytes → B

namespace ContentHandler

def contentEncoding (headers : HeaderMap) : String :=
  ((headers.get "content-encoding").bind toStr).getD "identity"

def acceptEncoding (headers : HeaderMap) : String :=
  ((headers.get "accept-encoding").bind toStr).getD "identity"

def contentLength (headers : HeaderMap) : Nat :=
  (((headers.get "content-length").bind toStr).map fun value => (parseUsize value).getD 0).getD 0

/-- The monad carries the effects of the handler behind, and its errors. -/
def call {m : Type u → Type v} [Monad m] (requestCodec : BodyCodec B F)
    (responseCodec : BodyCodec (HttpBody E) F) (inner : Request B → m (Response E × Bool))
    (request : Request B) : m (Response E × Bool) := do
  let contentEncoding := contentEncoding request.headers
  let acceptEncoding := acceptEncoding request.headers
  let contentLength := contentLength request.headers
  if contentLength = 0 ∨ contentEncoding = "identity" then
    let (response, _) ← inner request
    return (response, true)
  match requestCodec.decodeContent request.body contentEncoding with
  | .ok decodedData =>
      let request := { request with body := requestCodec.fixedBody (some decodedData) }
      let (response, _) ← inner request
      if acceptEncoding ≠ "identity" then
        match responseCodec.encodeContent response.body acceptEncoding with
        | .ok encodedData =>
            return ({ response with body := responseCodec.fixedBody (some encodedData) }, true)
        | .error _ => return (generateResponse internalServerError false, true)
      return (response, true)
  | .error _ => return (generateResponse badRequest false, true)

/-- The request that the handler behind is called with: it is run with one that only
tells what it was given. -/
def handed (requestCodec : BodyCodec B F) (responseCodec : BodyCodec (HttpBody E) F)
    (request : Request B) : Option (Request B) :=
  let tell : Request B → Except (Request B) (Response E × Bool) := .error
  match call requestCodec responseCodec tell request with
  | .error given => some given
  | .ok _ => none

/-- A body that has a length and an encoding, and can be decoded. -/
def Decoded (codec : BodyCodec B F) (request : Request B) (data : Bytes) : Prop :=
  contentLength request.headers ≠ 0 ∧ contentEncoding request.headers ≠ "identity" ∧
    codec.decodeContent request.body (contentEncoding request.headers) = .ok data

section
variable {requestCodec : BodyCodec B F} {responseCodec : BodyCodec (HttpBody E) F}
  {request : Request B} {data : Bytes}

theorem handed_decoded (h : Decoded requestCodec request data) :
    handed requestCodec responseCodec request =
      some { request with body := requestCodec.fixedBody (some data) } := by
  obtain ⟨length, encoding, decoded⟩ := h
  have asked : ¬ (contentLength request.headers = 0 ∨
      contentEncoding request.headers = "identity") := not_or.mpr ⟨length, encoding⟩
  simp only [handed, call, if_neg asked, decoded]
  rfl

/-- What is not decoded goes on as it is, or not at all. -/
theorem handed_undecoded (h : ∀ data, ¬ Decoded requestCodec request data) {given : Request B}
    (hgiven : handed requestCodec responseCodec request = some given) : given = request := by
  by_cases direct : contentLength request.headers = 0 ∨
      contentEncoding request.headers = "identity"
  · simp only [handed, call, if_pos direct] at hgiven
    exact (Option.some.inj hgiven).symm
  · obtain ⟨length, encoding⟩ := not_or.mp direct
    cases decoded : requestCodec.decodeContent request.body (contentEncoding request.headers) with
    | ok data => exact absurd ⟨length, encoding, decoded⟩ (h data)
    | error e =>
        simp only [handed, call, if_neg direct, decoded] at hgiven
        cases hgiven

end

/-- The lines that say how a body is encoded. -/
def encodings (headers : HeaderMap) : List String := headers.getAll "content-encoding"

/-- The length that the headers say, if it can be read. -/
def declaredLength (headers : HeaderMap) : Option Nat :=
  ((headers.get "content-length").bind toStr).bind parseUsize

/-- What is assumed of the bodies: decoding gives the content that the bytes of a body
denote, and a fixed body has the bytes it is made from. -/
structure Denotes (codec : BodyCodec B F) (bytes : B → Bytes) (dec : List String → Bytes → Bytes) :
    Prop where
  identity : ∀ b, dec [] b = b ∧ dec ["identity"] b = b
  decodeContent : ∀ body e data, codec.decodeContent body e = .ok data → data = dec [e] (bytes body)
  fixedBody : ∀ data, bytes (codec.fixedBody (some data)) = data

/-- The request that is passed on has the same content, and its length is right if
that of the request was. -/
def PreservesMeaning (requestCodec : BodyCodec B F) (responseCodec : BodyCodec (HttpBody E) F)
    (bytes : B → Bytes) (dec : List String → Bytes → Bytes) (request : Request B) : Prop :=
  ∀ given, handed requestCodec responseCodec request = some given →
    dec (encodings given.headers) (bytes given.body) =
      dec (encodings request.headers) (bytes request.body) ∧
    (declaredLength request.headers = some (bytes request.body).length →
      ∀ value, given.headers.get "content-length" = some value →
        declaredLength given.headers = some (bytes given.body).length)

/-- The meaning of a request is preserved if and only if it is not decoded, or what
it is decoded to still denotes the same under its encodings and does not have another
length where that was right. -/
theorem meaning_preserved_iff {requestCodec : BodyCodec B F}
    (responseCodec : BodyCodec (HttpBody E) F) {bytes : B → Bytes}
    {dec : List String → Bytes → Bytes} (denotes : Denotes requestCodec bytes dec)
    (request : Request B) :
    PreservesMeaning requestCodec responseCodec bytes dec request ↔
      (∀ data, ¬ Decoded requestCodec request data) ∨
      (dec (encodings request.headers)
            (dec [contentEncoding request.headers] (bytes request.body)) =
          dec (encodings request.headers) (bytes request.body) ∧
        (declaredLength request.headers = some (bytes request.body).length →
          (dec [contentEncoding request.headers] (bytes request.body)).length =
            (bytes request.body).length)) := by
  by_cases decoded : ∃ data, Decoded requestCodec request data
  · obtain ⟨data, h⟩ := decoded
    have content : data = dec [contentEncoding request.headers] (bytes request.body) :=
      denotes.decodeContent _ _ _ h.2.2
    have passed : handed requestCodec responseCodec request =
        some { request with body := requestCodec.fixedBody (some data) } := handed_decoded h
    rw [← content]
    constructor
    · intro preserved
      obtain ⟨meaning, length⟩ := preserved _ passed
      rw [denotes.fixedBody] at meaning length
      refine .inr ⟨meaning, fun right => ?_⟩
      cases hvalue : request.headers.get "content-length" with
      | none =>
          rw [declaredLength, hvalue] at right
          cases right
      | some value =>
          have declared := (length right value hvalue).symm.trans right
          exact Option.some.inj declared
    · rintro (undecoded | ⟨meaning, length⟩)
      · exact absurd h (undecoded data)
      · intro given hgiven
        obtain rfl := Option.some.inj (passed.symm.trans hgiven)
        rw [denotes.fixedBody]
        refine ⟨meaning, fun right value _ => ?_⟩
        rw [length right]
        exact right
  · have none_decoded := not_exists.mp decoded
    refine iff_of_true (fun given hgiven => ?_) (.inl none_decoded)
    obtain rfl := handed_undecoded none_decoded hgiven
    exact ⟨rfl, fun right _ _ => right⟩

/-- The two bytes 0x68 and 0x69, compressed. -/
def gzipped : Bytes :=
  [0x1F, 0x8B, 0x08, 0, 0, 0, 0, 0, 0, 0xFF, 0x01, 0x02, 0, 0xFD, 0xFF, 0x68, 0x69, 0xAC, 0x2A,
    0x93, 0xD8, 0x02, 0, 0, 0]

/-- No other content is known. -/
def gunzip (encodings : List String) (b : Bytes) : Bytes :=
  if encodings = [] ∨ encodings = ["identity"] then b
  else if encodings = ["gzip"] ∧ b = gzipped then [0x68, 0x69]
  else []

def gzipCodec : BodyCodec Bytes String where
  decodeContent body encoding :=
    if encoding = "gzip" ∧ body = gzipped then .ok [0x68, 0x69] else .error "corrupt"
  encodeContent _ _ := .error "not implemented"
  fixedBody data := data.getD []

theorem gzipCodec_denotes : Denotes gzipCodec id gunzip where
  identity _ := ⟨if_pos (.inl rfl), if_pos (.inr rfl)⟩
  decodeContent := by
    intro body e data h
    simp only [gzipCodec] at h
    split at h
    · rename_i known
      cases h
      obtain ⟨rfl, rfl⟩ := known
      rfl
    · cases h
  fixedBody _ := rfl

def responseCodec : BodyCodec (HttpBody String) String where
  decodeContent _ _ := .error "not implemented"
  encodeContent _ _ := .error "not implemented"
  fixedBody data := { streamHint := .fixed, chunks := data.toList, failure := none }

def postRequest (headers : HeaderMap) (body : Bytes) : Request Bytes :=
  ⟨"POST", ⟨none, none, some ⟨"/", none⟩⟩, .http11, headers, body⟩

/-- A body without an encoding. -/
theorem plain_body_preserved :
    PreservesMeaning gzipCodec responseCodec id gunzip
      (postRequest [("content-length", "2")] [0x68, 0x69]) := by
  refine (meaning_preserved_iff responseCodec gzipCodec_denotes _).mpr (.inl fun data h => ?_)
  exact h.2.1 rfl

/-- A compressed body: what is passed on is decoded, and still called compressed. -/
theorem decoded_body_misnamed :
    Denotes gzipCodec id gunzip ∧ ¬ PreservesMeaning gzipCodec responseCodec id gunzip
      (postRequest [("content-encoding", "gzip"), ("content-length", "25")] gzipped) := by
  refine ⟨gzipCodec_denotes, fun preserved => ?_⟩
  have decoded : Decoded gzipCodec
      (postRequest [("content-encoding", "gzip"), ("content-length", "25")] gzipped)
      [0x68, 0x69] := by
    refine ⟨by decide, by decide, rfl⟩
  have meaning := (preserved _ (handed_decoded decoded)).1
  exact absurd meaning (by decide)

end ContentHandler

end Monolake.Http
