import Monolake.Http.Message

/-!
Writing one response to an HTTP/2 stream. The calls on the response handle and on
the send stream are recorded in order; the results of `send_data` are discarded
by the code, so they decide nothing.
-/
namespace Monolake.Http

universe u
variable {E : Type u}

/-- A call of `send_response` or of `send_data`. -/
inductive SendCall where
  | sendResponse (parts : Parts) (endOfStream : Bool)
  | sendData (data : Bytes) (endOfStream : Bool)
  deriving DecidableEq

namespace SendCall

def endOfStream : SendCall → Bool
  | .sendResponse _ endOfStream | .sendData _ endOfStream => endOfStream

def frame : SendCall → Option (Bytes × Bool)
  | .sendResponse .. => none
  | .sendData data endOfStream => some (data, endOfStream)

end SendCall

/-- `while let Some(Ok(data)) = body.next_data()` -/
def forwardChunks (body : HttpBody E) : List SendCall :=
  match _hnext : body.nextData with
  | (body', some (.ok data)) => .sendData data false :: forwardChunks body'
  | (_, some (.error _)) | (_, none) => []
termination_by body.chunks.length
decreasing_by
  obtain ⟨hint, chunks, failure⟩ := body
  cases chunks with
  | nil => cases failure <;> simp [HttpBody.nextData] at _hnext
  | cons _ chunks =>
      obtain ⟨rfl, -⟩ := Prod.mk.inj _hnext
      exact Nat.lt_succ_self chunks.length

/-- The head that is sent. -/
def Parts.relayed (parts : Parts) : Parts :=
  { parts with headers := parts.headers.remove "connection" }

/-- `sends` tells whether `send_response` succeeds. -/
def h2ProcessResponse (sends : Parts → Bool → Bool) (response : Response E) : List SendCall :=
  let parts := response.parts.relayed
  match response.body.streamHint with
  | .none => [.sendResponse parts true]
  | .fixed =>
      .sendResponse parts false ::
        if sends parts false then
          match response.body.nextData with
          | (_, some (.ok data)) => [.sendData data true]
          | (_, some (.error _)) | (_, none) => []
        else []
  | .stream =>
      .sendResponse parts false ::
        if sends parts false then forwardChunks response.body ++ [.sendData [] true]
        else []

theorem forwardChunks_eq (body : HttpBody E) :
    forwardChunks body = body.chunks.map (.sendData · false) := by
  obtain ⟨hint, chunks, failure⟩ := body
  induction chunks with
  | nil =>
      rw [forwardChunks]
      cases failure <;> rfl
  | cons data chunks ih =>
      rw [forwardChunks]
      exact congrArg (.sendData data false :: ·) ih

/-- The frames behind the head: a fixed body is its first chunk, and behind the chunks of a
stream comes an empty frame. -/
def bodyFrames (body : HttpBody E) : List (Bytes × Bool) :=
  match body.streamHint with
  | .none => []
  | .fixed => (body.chunks.take 1).map (·, true)
  | .stream => body.chunks.map (·, false) ++ [([], true)]

/-- The response is sent, once: its status and its headers, but for `Connection`, and when the
head could be sent, the frames of its body. -/
def SendsResponse (sends : Parts → Bool → Bool) (response : Response E)
    (calls : List SendCall) : Prop :=
  ∃ parts endOfStream,
    calls = .sendResponse parts endOfStream ::
      (if sends parts endOfStream then
        (bodyFrames response.body).map fun frame => .sendData frame.1 frame.2
      else []) ∧
    (endOfStream = true ↔ response.body.streamHint = .none) ∧
    parts.status = response.parts.status ∧ parts.version = response.parts.version ∧
    parts.headers.getAll "connection" = [] ∧
    ∀ name, name ≠ "connection" →
      parts.headers.getAll name = response.parts.headers.getAll name

/-- The calls for each hint. -/
theorem h2ProcessResponse_eq (sends : Parts → Bool → Bool) (response : Response E) :
    let endOfStream := decide (response.body.streamHint = .none)
    h2ProcessResponse sends response = .sendResponse response.parts.relayed endOfStream ::
      (if sends response.parts.relayed endOfStream then
        (bodyFrames response.body).map fun frame => .sendData frame.1 frame.2
      else []) := by
  obtain ⟨parts, hint, chunks, failure⟩ := response
  cases hint with
  | none =>
      have silent : ∀ sent : Bool, (if sent then [] else []) = ([] : List SendCall) := by simp
      exact congrArg _ (silent _).symm
  | fixed =>
      refine congrArg (SendCall.sendResponse parts.relayed false :: ·) ?_
      cases chunks with
      | nil => cases failure <;> rfl
      | cons data chunks => rfl
  | stream =>
      simp [h2ProcessResponse, bodyFrames, forwardChunks_eq, Function.comp_def]

/-- Whatever the hint and the body, the response is sent. -/
theorem h2ProcessResponse_sends (sends : Parts → Bool → Bool) (response : Response E) :
    SendsResponse sends response (h2ProcessResponse sends response) :=
  ⟨_, _, h2ProcessResponse_eq sends response, decide_eq_true_iff, rfl, rfl,
    HeaderMap.getAll_remove_self _ _, fun _ other => HeaderMap.getAll_remove_of_ne _ _ other⟩

/-! What the client can tell from the frames. -/

def frames (calls : List SendCall) : List (Bytes × Bool) := calls.filterMap (·.frame)

/-- The chunks are on the stream in order, possibly with an empty frame after
them that closes the stream. -/
def PutsInOrder (chunks : List Bytes) (calls : List SendCall) : Prop :=
  (frames calls).map Prod.fst = chunks ∨
    ∃ before, frames calls = before ++ [([], true)] ∧ before.map Prod.fst = chunks

def MarksEnd (calls : List SendCall) : Prop := ∃ call ∈ calls, call.endOfStream = true

/-- The stream carries the body, and is closed exactly when that is complete. -/
def RelaysBody (body : HttpBody E) (calls : List SendCall) : Prop :=
  PutsInOrder body.chunks calls ∧
    (MarksEnd calls ↔ body.failure = none ∧ PutsInOrder body.chunks calls)

/-- Fewer frames than chunks lose one. -/
theorem not_putsInOrder_of_fewer {chunks : List Bytes} {calls : List SendCall}
    (h : (frames calls).length < chunks.length) : ¬ PutsInOrder chunks calls := by
  rintro (same | ⟨before, closed, same⟩)
  · have length := congrArg List.length same
    rw [List.length_map] at length
    omega
  · have length := congrArg List.length same
    rw [closed, List.length_append] at h
    rw [List.length_map] at length
    omega

section
variable {sends : Parts → Bool → Bool} {response : Response E}

/-- With the stream hint all chunks are put, and the end is always marked. -/
theorem stream_relays (hhint : response.body.streamHint = .stream)
    (hhead : sends response.parts.relayed false = true) :
    PutsInOrder response.body.chunks (h2ProcessResponse sends response) ∧
      MarksEnd (h2ProcessResponse sends response) := by
  have calls : h2ProcessResponse sends response =
      .sendResponse response.parts.relayed false ::
        (response.body.chunks.map (.sendData · false) ++ [.sendData [] true]) := by
    simp only [h2ProcessResponse, hhint, hhead, if_true, forwardChunks_eq]
  rw [calls]
  constructor
  · refine .inr ⟨response.body.chunks.map (·, false), ?_, by simp [Function.comp_def]⟩
    simp [frames, SendCall.frame, List.filterMap_map]
  · exact ⟨.sendData [] true, by simp, rfl⟩

/-- With the fixed hint the first chunk is the only one, and it marks the end. -/
theorem fixed_relays (hhint : response.body.streamHint = .fixed)
    (hhead : sends response.parts.relayed false = true) :
    h2ProcessResponse sends response = .sendResponse response.parts.relayed false ::
      (response.body.chunks.take 1).map (.sendData · true) := by
  obtain ⟨parts, hint, chunks, failure⟩ := response
  obtain rfl : hint = .fixed := hhint
  simp only [h2ProcessResponse, hhead, if_true]
  cases chunks with
  | nil => cases failure <;> rfl
  | cons data chunks => rfl

/-- When the head is sent: the client gets the body and can tell whether that is
complete, exactly when a streamed body does not fail, and a fixed body is one
chunk that does not fail or fails before any chunk. -/
theorem relays_body_iff (hhint : response.body.streamHint ≠ .none)
    (hhead : sends response.parts.relayed false = true) :
    RelaysBody response.body (h2ProcessResponse sends response) ↔
      (response.body.streamHint = .stream ∧ response.body.failure = none) ∨
      (response.body.streamHint = .fixed ∧
        (response.body.chunks = [] ∧ response.body.failure ≠ none ∨
          response.body.chunks.length = 1 ∧ response.body.failure = none)) := by
  cases hint : response.body.streamHint with
  | none => exact absurd hint hhint
  | stream =>
      obtain ⟨puts, marks⟩ := stream_relays hint hhead
      simp [RelaysBody, puts, marks]
  | fixed =>
      have calls := fixed_relays hint hhead
      cases chunks : response.body.chunks with
      | nil =>
          rw [chunks] at calls
          simp [RelaysBody, PutsInOrder, MarksEnd, frames, SendCall.frame, SendCall.endOfStream,
            chunks, calls]
      | cons data rest =>
          rw [chunks] at calls
          have marks : MarksEnd (h2ProcessResponse sends response) := by
            rw [calls]
            exact ⟨.sendData data true, by simp, rfl⟩
          have sent : frames (h2ProcessResponse sends response) = [(data, true)] := by
            rw [calls]
            rfl
          cases rest with
          | nil =>
              have puts : PutsInOrder [data] (h2ProcessResponse sends response) := by
                refine .inl ?_
                rw [sent]
                rfl
              simp [RelaysBody, chunks, marks, puts]
          | cons data' rest =>
              have lost : ¬ PutsInOrder (data :: data' :: rest)
                  (h2ProcessResponse sends response) := by
                apply not_putsInOrder_of_fewer
                simp [sent]
              simp [RelaysBody, chunks, lost]

end

/-- A streamed body of two chunks. -/
theorem two_chunks_relayed :
    let body : HttpBody String := ⟨.stream, [[1, 2], [3]], none⟩
    RelaysBody body (h2ProcessResponse (fun _ _ => true) ⟨⟨200, .http2, []⟩, body⟩) :=
  (relays_body_iff (by decide) rfl).mpr (.inl ⟨rfl, rfl⟩)

/-- The upstream dies after one chunk of a streamed body, and the client is told
that the body is complete. -/
theorem truncated_body_marked_complete :
    let body : HttpBody String := ⟨.stream, [[1, 2]], some "connection reset"⟩
    ¬ RelaysBody body (h2ProcessResponse (fun _ _ => true) ⟨⟨200, .http2, []⟩, body⟩) := by
  intro body relays
  have marks := relays.2.mp (stream_relays rfl rfl).2
  cases marks.1

end Monolake.Http
