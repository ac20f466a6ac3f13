import Monolake.ProxyProtocol.Arrival

/-!
What the inner service reads. The buffer and the stream behind it make up the
original stream at every point of a call; only a header that was accepted is
taken off, and only such a header gives a remote address.
-/
namespace Monolake.ProxyProtocol

universe u
variable {A4 A6 : Type u}

/-- The answers of `parse` in the rounds of the loop. -/
def loopAnswers (parse : Parse A4 A6) (target : List UInt8) :
    Nat → List UInt8 → SourceStream → List (Except ParseError (ProxyHeader A4 A6 × Nat))
  | 0, _, _ => []
  | fuel + 1, buffer, stream =>
      parse buffer ::
        match headerLoop parse target 1 buffer stream with
        | some _ => []
        | none =>
            let (bytes, stream) := stream.read (maxHeaderSize - buffer.length)
            loopAnswers parse target fuel (buffer ++ bytes) stream

/-- The answers of `parse` in a call. -/
def answers (parse : Parse A4 A6) (fuel : Nat) (stream : SourceStream) :
    List (Except ParseError (ProxyHeader A4 A6 × Nat)) :=
  let (buffer, stream) := stream.read maxHeaderSize
  match buffer[0]?.bind (targetHeader · buffer) with
  | some target => loopAnswers parse target fuel buffer stream
  | none => []

/-- The cursor is left within the bytes it was given. -/
def ParsesWithin (parse : Parse A4 A6) : Prop :=
  ∀ buffer header idx, parse buffer = .ok (header, idx) → idx ≤ buffer.length

def ProxyHeader.addresses : ProxyHeader A4 A6 → ProxyAddresses A4 A6
  | .version1 addresses | .version2 addresses => addresses

theorem remoteAddr_ipv4_iff (header : ProxyHeader A4 A6) (source : A4) :
    header.remoteAddr = some (.ipv4 source) ↔
      ∃ destination, header.addresses = .ipv4 source destination := by
  obtain addresses | addresses := header <;> cases addresses <;>
    simp [ProxyHeader.remoteAddr, ProxyHeader.addresses]

theorem remoteAddr_ipv6_iff (header : ProxyHeader A4 A6) (source : A6) :
    header.remoteAddr = some (.ipv6 source) ↔
      ∃ destination, header.addresses = .ipv6 source destination := by
  obtain addresses | addresses := header <;> cases addresses <;>
    simp [ProxyHeader.remoteAddr, ProxyHeader.addresses]

section
variable {parse : Parse A4 A6} {target : List UInt8}

/-- A round that does not end the loop is one read further on. -/
theorem headerLoop_round {buffer : List UInt8} {stream : SourceStream}
    (h : headerLoop parse target 1 buffer stream = none) (fuel : Nat) :
    headerLoop parse target (fuel + 1) buffer stream =
      headerLoop parse target fuel (buffer ++ (stream.read (maxHeaderSize - buffer.length)).1)
        (stream.read (maxHeaderSize - buffer.length)).2 := by
  simp only [headerLoop] at h ⊢
  cases hp : parse buffer with
  | ok parsed => simp [hp] at h
  | error e =>
      simp only [hp] at h ⊢
      split at h
      · rename_i he
        rw [if_pos he]
        split at h
        · cases h
        · rename_i hmatch
          rw [if_neg hmatch]
          split at h
          · cases h
          · rename_i hfull
            rw [if_neg hfull]
      · cases h

/-- A round that ends the loop, ends it however many more there could be. -/
theorem headerLoop_last {buffer : List UInt8} {stream : SourceStream}
    {exit : LoopExit A4 A6 × List UInt8 × SourceStream}
    (h : headerLoop parse target 1 buffer stream = some exit) (fuel : Nat) :
    headerLoop parse target (fuel + 1) buffer stream = some exit := by
  simp only [headerLoop] at h ⊢
  cases hp : parse buffer with
  | ok parsed => simpa [hp] using h
  | error e =>
      simp only [hp] at h ⊢
      split at h
      · rename_i he
        rw [if_pos he]
        split at h
        · rename_i hmatch
          rw [if_pos hmatch, h]
        · rename_i hmatch
          rw [if_neg hmatch]
          split at h
          · rename_i hfull
            rw [if_pos hfull, h]
          · cases h
      · rename_i he
        rw [if_neg he, h]

/-- A round that breaks the loop breaks it with the answer of `parse`. -/
theorem round_broke {buffer buffer' : List UInt8} {stream stream' : SourceStream}
    {parsed : Except ParseError (ProxyHeader A4 A6 × Nat)}
    (h : headerLoop parse target 1 buffer stream = some (.broke parsed, buffer', stream')) :
    parsed = parse buffer ∧ buffer' ++ stream'.rest = buffer ++ stream.rest ∧
      ∀ accepted, parsed = .ok accepted → buffer' = buffer := by
  simp only [headerLoop] at h
  cases hp : parse buffer with
  | ok accepted =>
      simp only [hp, Option.some.injEq, Prod.mk.injEq, LoopExit.broke.injEq] at h
      obtain ⟨rfl, rfl, rfl⟩ := h
      exact ⟨rfl, rfl, fun _ _ => rfl⟩
  | error e =>
      simp only [hp] at h
      split at h
      · split at h
        · simp only [Option.some.injEq, Prod.mk.injEq, LoopExit.broke.injEq] at h
          obtain ⟨rfl, rfl, rfl⟩ := h
          refine ⟨rfl, ?_, fun accepted same => by cases same⟩
          rw [List.append_assoc, read_append]
        · split at h
          · simp at h
          · cases h
      · simp only [Option.some.injEq, Prod.mk.injEq, LoopExit.broke.injEq] at h
        obtain ⟨rfl, rfl, rfl⟩ := h
        exact ⟨rfl, rfl, fun accepted same => by cases same⟩

/-- A round after which the loop goes on did not accept a header. -/
theorem round_goes_on {buffer : List UInt8} {stream : SourceStream}
    (h : headerLoop parse target 1 buffer stream = none)
    (accepted : ProxyHeader A4 A6 × Nat) : parse buffer ≠ .ok accepted := by
  intro hp
  simp [headerLoop, hp] at h

/-- A loop that breaks keeps all bytes, and breaks with a header exactly when one
of the answers was that header: the last one, on the buffer as it is then. -/
theorem headerLoop_conserves {fuel : Nat} {buffer buffer' : List UInt8}
    {stream stream' : SourceStream} {parsed : Except ParseError (ProxyHeader A4 A6 × Nat)}
    (h : headerLoop parse target fuel buffer stream = some (.broke parsed, buffer', stream')) :
    buffer' ++ stream'.rest = buffer ++ stream.rest ∧
      ∀ accepted, (.ok accepted ∈ loopAnswers parse target fuel buffer stream ↔
        parsed = .ok accepted) ∧ (parsed = .ok accepted → parse buffer' = .ok accepted) := by
  induction fuel generalizing buffer stream with
  | zero => cases h
  | succ fuel ih =>
      cases hround : headerLoop parse target 1 buffer stream with
      | some exit =>
          rw [headerLoop_last hround] at h
          obtain rfl := Option.some.inj h
          obtain ⟨answer, conserved, same⟩ := round_broke hround
          refine ⟨conserved, fun accepted => ⟨?_, fun ok => ?_⟩⟩
          · simp only [loopAnswers, hround, List.mem_singleton]
            rw [answer]
            exact eq_comm
          · rw [same accepted ok, ← answer, ok]
      | none =>
          rw [headerLoop_round hround] at h
          obtain ⟨conserved, exact⟩ := ih h
          rw [List.append_assoc, read_append] at conserved
          refine ⟨conserved, fun accepted => ⟨?_, (exact accepted).2⟩⟩
          have open_ : Except.ok accepted ≠ parse buffer :=
            (round_goes_on hround accepted).symm
          simp only [loopAnswers, hround, List.mem_cons, open_, false_or]
          exact (exact accepted).1

end

/-- A call of the inner service: after one header that was accepted, or after
none. -/
theorem call_inner {parse : Parse A4 A6} (within : ParsesWithin parse) {fuel : Nat}
    {stream : SourceStream} {remoteAddr : Option (RemoteAddr A4 A6)} {handed : List UInt8}
    (h : call parse fuel stream = some (.inner remoteAddr handed)) :
    (∃ header k, (∀ accepted, .ok accepted ∈ answers parse fuel stream ↔ accepted = (header, k)) ∧
      remoteAddr = header.remoteAddr ∧ k ≤ stream.rest.length ∧ handed = stream.rest.drop k) ∨
    (∀ accepted, .ok accepted ∉ answers parse fuel stream) ∧ remoteAddr = none ∧
      handed = stream.rest := by
  have whole := read_append stream maxHeaderSize
  simp only [call] at h
  simp only [answers]
  revert h whole
  generalize stream.read maxHeaderSize = read
  obtain ⟨buffer, behind⟩ := read
  intro h whole
  dsimp only at h whole ⊢
  cases hfirst : buffer[0]? with
  | none => simp [hfirst] at h
  | some first =>
      simp only [hfirst, Option.bind_some] at h ⊢
      cases htarget : targetHeader first buffer with
      | none =>
          simp only [htarget, callInner, Option.some.injEq, Outcome.inner.injEq] at h
          obtain ⟨rfl, rfl⟩ := h
          exact .inr ⟨by simp, rfl, whole⟩
      | some target =>
          simp only [htarget, Option.map_eq_some_iff] at h ⊢
          obtain ⟨⟨exit, buffer', behind'⟩, hloop, hafter⟩ := h
          cases exit with
          | returned e => cases hafter
          | broke parsed =>
              obtain ⟨conserved, exact⟩ := headerLoop_conserves hloop
              rw [whole] at conserved
              cases parsed with
              | error e =>
                  simp only [afterLoop, callInner, Outcome.inner.injEq] at hafter
                  obtain ⟨rfl, rfl⟩ := hafter
                  refine .inr ⟨fun accepted hmem => ?_, rfl, conserved⟩
                  cases (exact accepted).1.mp hmem
              | ok accepted =>
                  obtain ⟨header, k⟩ := accepted
                  simp only [afterLoop, callInner, Outcome.inner.injEq] at hafter
                  obtain ⟨rfl, rfl⟩ := hafter
                  have hk := within _ _ _ ((exact _).2 rfl)
                  refine .inl ⟨header, k, fun accepted => ?_, rfl, ?_, ?_⟩
                  · rw [(exact accepted).1, Except.ok.injEq]
                    exact eq_comm
                  · rw [← conserved, List.length_append]
                    omega
                  · rw [← conserved, List.drop_append_of_le_length hk]

/-- Whenever the inner service is called: when a header of `k` bytes was accepted,
what it is handed yields the stream without its first `k` bytes, and else the
whole stream; the remote address is the source of the header that was accepted,
if that has an IPv4 or IPv6 source, and else there is none. -/
theorem inner_reads_the_rest {parse : Parse A4 A6} (within : ParsesWithin parse) {fuel : Nat}
    {stream : SourceStream} {remoteAddr : Option (RemoteAddr A4 A6)} {handed : List UInt8}
    (h : call parse fuel stream = some (.inner remoteAddr handed)) :
    (∀ header k, .ok (header, k) ∈ answers parse fuel stream →
      k ≤ stream.rest.length ∧ handed = stream.rest.drop k) ∧
    ((∀ accepted, .ok accepted ∉ answers parse fuel stream) → handed = stream.rest) ∧
    (∀ source, remoteAddr = some (.ipv4 source) ↔ ∃ header k destination,
      .ok (header, k) ∈ answers parse fuel stream ∧
        header.addresses = .ipv4 source destination) ∧
    (∀ source, remoteAddr = some (.ipv6 source) ↔ ∃ header k destination,
      .ok (header, k) ∈ answers parse fuel stream ∧
        header.addresses = .ipv6 source destination) := by
  obtain ⟨header, k, only, rfl, hk, rest⟩ | ⟨none_accepted, rfl, rest⟩ := call_inner within h
  · refine ⟨fun header' k' hmem => ?_, fun h => ?_, fun source => ?_, fun source => ?_⟩
    · obtain ⟨rfl, rfl⟩ := Prod.mk.inj ((only _).mp hmem)
      exact ⟨hk, rest⟩
    · exact absurd ((only _).mpr rfl) (h _)
    · simp [only, remoteAddr_ipv4_iff]
    · simp [only, remoteAddr_ipv6_iff]
  · exact ⟨fun header k hmem => absurd hmem (none_accepted _), fun _ => rest,
      fun source => by simp [none_accepted], fun source => by simp [none_accepted]⟩

theorem parseV1Line_within : ParsesWithin parseV1Line := by
  intro buffer header idx h
  rw [parseV1Line] at h
  split at h
  · rename_i complete
    obtain ⟨-, rfl⟩ := Prod.mk.inj (Except.ok.inj h)
    exact complete.length_le
  · split at h <;> cases h

/-- The line of an IPv4 client in two reads, and three bytes behind it. -/
theorem v1_line_taken_off :
    let stream : SourceStream := ⟨v1Line ++ [0x61, 0x62, 0x63], fun _ => 20⟩
    ∃ remoteAddr handed, call parseV1Line 3 stream = some (.inner remoteAddr handed) ∧
      handed = stream.rest.drop v1Line.length ∧ remoteAddr = some (.ipv4 "1.2.3.4:9") := by
  intro stream
  have called : call parseV1Line 3 stream =
      some (.inner (some (.ipv4 "1.2.3.4:9")) [0x61, 0x62, 0x63]) := by rfl
  have accepted : .ok (.version1 (.ipv4 "1.2.3.4:9" "5.6.7.8:9"), v1Line.length) ∈
      answers parseV1Line 3 stream := .tail _ (.head _)
  obtain ⟨rest, -⟩ := inner_reads_the_rest parseV1Line_within called
  exact ⟨_, _, called, (rest _ _ accepted).2, rfl⟩

end Monolake.ProxyProtocol
