import Monolake.ProxyProtocol.Call

/-!
The call of the service with every index and slice checked, `pos` kept beside the
buffer as the code does, and reads that may bring nothing at any time.
-/
namespace Monolake.ProxyProtocol

variable {A4 A6 : Type}

/-- An access from `start` to `stop` of `length` bytes. -/
structure OutOfBounds where
  start : Nat
  stop : Nat
  length : Nat
  deriving DecidableEq

/-- `bytes[i]` -/
def checkedIndex (bytes : List UInt8) (i : Nat) : Except OutOfBounds UInt8 :=
  match bytes[i]? with
  | some byte => .ok byte
  | none => .error ⟨i, i + 1, bytes.length⟩

/-- `bytes[start..stop]` -/
def checkedSlice (bytes : List UInt8) (start stop : Nat) : Except OutOfBounds (List UInt8) :=
  if start ≤ stop ∧ stop ≤ bytes.length then .ok (slice bytes start stop)
  else .error ⟨start, stop, bytes.length⟩

/-- The length of the part `pos..MAX_HEADER_SIZE` of the buffer's capacity. -/
def checkedFree (pos : Nat) : Except OutOfBounds Nat :=
  if pos ≤ maxHeaderSize then .ok (maxHeaderSize - pos)
  else .error ⟨pos, maxHeaderSize, maxHeaderSize⟩

/-- A read of any size up to what is requested. -/
def SourceStream.readAny (stream : SourceStream) (requested : Nat) :
    List UInt8 × SourceStream :=
  let n := min (stream.sizes 0) (min requested stream.rest.length)
  (stream.rest.take n, { rest := stream.rest.drop n, sizes := fun i => stream.sizes (i + 1) })

def checkedTargetHeader (buffer : List UInt8) (pos : Nat) :
    Except OutOfBounds (Option (List UInt8)) := do
  let first ← checkedIndex buffer 0
  if first = 0x50 then
    let stop := min pos v1Header.length
    let left ← checkedSlice buffer 1 stop
    let right ← checkedSlice v1Header 1 stop
    return if left = right then some v1Header else none
  else if first = 0x0D then
    let stop := min pos v2Header.length
    let left ← checkedSlice buffer 1 stop
    let right ← checkedSlice v2Header 1 stop
    return if left = right then some v2Header else none
  else return none

/-- Whether the bytes just read do not go on with the magic. -/
def checkedMismatch (buffer target : List UInt8) (pos read : Nat) : Except OutOfBounds Bool := do
  if pos < target.length then
    let stop := min target.length (pos + read)
    let left ← checkedSlice buffer pos stop
    let right ← checkedSlice target pos stop
    return decide (left ≠ right)
  else return false

def checkedLoop (parse : Parse A4 A6) (target : List UInt8) :
    Nat → List UInt8 → Nat → SourceStream →
      Except OutOfBounds (Option (LoopExit A4 A6 × List UInt8 × SourceStream))
  | 0, _, _, _ => .ok none
  | fuel + 1, buffer, pos, stream =>
      match parse buffer with
      | .ok (header, idx) => .ok (some (.broke (.ok (header, idx)), buffer, stream))
      | .error e =>
          if e.dataNotEnough then do
            let free ← checkedFree pos
            let (bytes, stream) := stream.readAny free
            let buffer := buffer ++ bytes
            let mismatch ← checkedMismatch buffer target pos bytes.length
            if mismatch then return some (.broke (.error e), buffer, stream)
            else
              let pos := pos + bytes.length
              if pos = maxHeaderSize then return some (.returned .notProxyHeader, buffer, stream)
              else checkedLoop parse target fuel buffer pos stream
          else .ok (some (.broke (.error e), buffer, stream))

def checkedCall (parse : Parse A4 A6) (fuel : Nat) (stream : SourceStream) :
    Except OutOfBounds (Option (Outcome A4 A6)) := do
  let free ← checkedFree 0
  let (buffer, stream) := stream.readAny free
  let pos := buffer.length
  match ← checkedTargetHeader buffer pos with
  | none => return some (callInner none buffer stream)
  | some target =>
      let exit ← checkedLoop parse target fuel buffer pos stream
      return exit.map afterLoop

theorem ok_bind {α β : Type} (a : α) (f : α → Except OutOfBounds β) :
    (Except.ok a >>= f) = f a := rfl

theorem checkedSlice_ok {bytes : List UInt8} {start stop : Nat} (h : start ≤ stop)
    (h' : stop ≤ bytes.length) : checkedSlice bytes start stop = .ok (slice bytes start stop) :=
  if_pos ⟨h, h'⟩

theorem checkedFree_ok {pos : Nat} (h : pos ≤ maxHeaderSize) :
    checkedFree pos = .ok (maxHeaderSize - pos) :=
  if_pos h

/-- A read that brings something reads as the service expects it to. -/
theorem readAny_eq {stream : SourceStream} (h : 0 < stream.sizes 0) (requested : Nat) :
    stream.readAny requested = stream.read requested := by
  have size : max 1 (stream.sizes 0) = stream.sizes 0 := by omega
  rw [SourceStream.read, size]
  rfl

theorem readAny_length (stream : SourceStream) (requested : Nat) :
    (stream.readAny requested).1.length ≤ requested := by
  rw [SourceStream.readAny, List.length_take]
  omega

/-- With a first byte the magic is matched within the buffer. -/
theorem checkedTargetHeader_ok (first : UInt8) (rest : List UInt8) :
    checkedTargetHeader (first :: rest) (first :: rest).length =
      .ok (targetHeader first (first :: rest)) := by
  have within : ∀ target : List UInt8, 0 < target.length →
      1 ≤ min (first :: rest).length target.length := by
    intro target h
    rw [List.length_cons]
    omega
  have v1 := within v1Header (by decide)
  have v2 := within v2Header (by decide)
  simp only [checkedTargetHeader, checkedIndex, List.getElem?_cons_zero, targetHeader,
    checkedSlice_ok v1 (Nat.min_le_left ..), checkedSlice_ok v1 (Nat.min_le_right ..),
    checkedSlice_ok v2 (Nat.min_le_left ..), checkedSlice_ok v2 (Nat.min_le_right ..)]
  change (if first = 0x50 then _ else if first = 0x0D then _ else _) = _
  split
  · rfl
  · split
    · rfl
    · rfl

/-- The check of the magic after a read is within the buffer. -/
theorem checkedMismatch_ok (buffer bytes target : List UInt8) :
    let stop := min target.length (buffer.length + bytes.length)
    checkedMismatch (buffer ++ bytes) target buffer.length bytes.length =
      .ok (decide (buffer.length < target.length ∧
        slice (buffer ++ bytes) buffer.length stop ≠ slice target buffer.length stop)) := by
  intro stop
  rw [checkedMismatch]
  by_cases h : buffer.length < target.length
  · have start : buffer.length ≤ stop := by omega
    have whole : stop ≤ (buffer ++ bytes).length := by
      rw [List.length_append]
      exact Nat.min_le_right ..
    simp only [h, if_true, true_and]
    change (do
      let left ← checkedSlice (buffer ++ bytes) buffer.length stop
      let right ← checkedSlice target buffer.length stop
      return decide (left ≠ right)) = _
    rw [checkedSlice_ok start whole, checkedSlice_ok start (Nat.min_le_left ..)]
    rfl
  · simp [h]
    rfl

/-- While `pos` is the length of the buffer and within its capacity, no access of
the loop is out of bounds, and it is the loop of the service. -/
theorem checkedLoop_ok (parse : Parse A4 A6) (target : List UInt8) (fuel : Nat)
    {buffer : List UInt8} (hpos : buffer.length ≤ maxHeaderSize) (stream : SourceStream) :
    ∃ exit, checkedLoop parse target fuel buffer buffer.length stream = .ok exit ∧
      ((∀ i, 0 < stream.sizes i) → exit = headerLoop parse target fuel buffer stream) := by
  induction fuel generalizing buffer stream with
  | zero => exact ⟨none, rfl, fun _ => rfl⟩
  | succ fuel ih =>
      simp only [checkedLoop, headerLoop]
      cases hp : parse buffer with
      | ok parsed => exact ⟨_, rfl, fun _ => rfl⟩
      | error e =>
          by_cases he : e.dataNotEnough = true
          · have bound := readAny_length stream (maxHeaderSize - buffer.length)
            have same : (∀ i, 0 < stream.sizes i) → stream.readAny (maxHeaderSize - buffer.length) =
                stream.read (maxHeaderSize - buffer.length) := fun h => readAny_eq (h 0) _
            have sizes : (∀ i, 0 < stream.sizes i) →
                ∀ i, 0 < (stream.readAny (maxHeaderSize - buffer.length)).2.sizes i :=
              fun h i => h (i + 1)
            simp only [he, if_true, checkedFree_ok hpos, ok_bind, checkedMismatch_ok,
              decide_eq_true_eq]
            revert bound same sizes
            generalize stream.readAny (maxHeaderSize - buffer.length) = read
            intro bound same sizes
            have longer : (buffer ++ read.1).length = buffer.length + read.1.length :=
              List.length_append
            split
            · rename_i mismatch
              refine ⟨_, rfl, fun h => ?_⟩
              rw [← same h, if_pos mismatch]
            · rename_i matched
              split
              · rename_i full
                refine ⟨_, rfl, fun h => ?_⟩
                rw [← same h, if_neg matched, if_pos full]
              · rename_i partly
                have within : (buffer ++ read.1).length ≤ maxHeaderSize := by omega
                obtain ⟨exit, run, agrees⟩ := ih within read.2
                rw [longer] at run
                refine ⟨exit, run, fun h => ?_⟩
                rw [← same h, if_neg matched, if_neg partly, agrees (sizes h)]
          · simp only [he]
            exact ⟨_, rfl, fun _ => rfl⟩

/-- The first read brings at least one byte. -/
def SourceStream.Begins (stream : SourceStream) : Prop :=
  0 < stream.sizes 0 ∧ stream.rest ≠ []

theorem readAny_begins {stream : SourceStream} (h : stream.Begins) :
    ∃ first rest, (stream.readAny maxHeaderSize).1 = first :: rest := by
  obtain ⟨hsize, hrest⟩ := h
  have hlength : 0 < stream.rest.length := List.length_pos_of_ne_nil hrest
  refine List.exists_cons_of_ne_nil fun hnil => ?_
  have length := congrArg List.length hnil
  simp only [SourceStream.readAny, List.length_take, List.length_nil, maxHeaderSize] at length
  omega

theorem readAny_none {stream : SourceStream} (h : ¬ stream.Begins) :
    (stream.readAny maxHeaderSize).1 = [] := by
  rw [SourceStream.Begins, not_and_or, not_not] at h
  simp only [SourceStream.readAny, List.take_eq_nil_iff]
  rcases h with h | h
  · left
    omega
  · exact .inr h

/-- Once a byte is there, no access is out of bounds, and the call is that of the
service. -/
theorem checkedCall_ok (parse : Parse A4 A6) (fuel : Nat) {stream : SourceStream}
    (h : stream.Begins) :
    ∃ outcome, checkedCall parse fuel stream = .ok outcome ∧
      ((∀ i, 0 < stream.sizes i) → outcome = call parse fuel stream) := by
  obtain ⟨first, rest, hread⟩ := readAny_begins h
  have bound := readAny_length stream maxHeaderSize
  have same := readAny_eq h.1 maxHeaderSize
  have sizes : (∀ i, 0 < stream.sizes i) →
      ∀ i, 0 < (stream.readAny maxHeaderSize).2.sizes i := fun h i => h (i + 1)
  have free : checkedFree 0 = .ok maxHeaderSize := rfl
  simp only [checkedCall, free, ok_bind, call, ← same]
  revert hread bound sizes
  generalize stream.readAny maxHeaderSize = read
  obtain ⟨buffer, stream'⟩ := read
  rintro rfl bound sizes
  simp only [checkedTargetHeader_ok, ok_bind, List.getElem?_cons_zero]
  cases targetHeader first (first :: rest) with
  | none => exact ⟨_, rfl, fun _ => rfl⟩
  | some target =>
      obtain ⟨exit, run, agrees⟩ := checkedLoop_ok parse target fuel bound stream'
      refine ⟨exit.map afterLoop, ?_, fun h => by rw [agrees (sizes h)]⟩
      simp only [run, ok_bind]
      rfl

theorem checkedCall_empty (parse : Parse A4 A6) (fuel : Nat) {stream : SourceStream}
    (h : ¬ stream.Begins) : checkedCall parse fuel stream = .error ⟨0, 1, 0⟩ := by
  have none_read := readAny_none h
  have free : checkedFree 0 = .ok maxHeaderSize := rfl
  simp only [checkedCall, free, ok_bind, none_read]
  rfl

/-- However the stream is split and however long the loop runs: all accesses are
within bounds exactly when the first read brings at least one byte. -/
theorem within_bounds_iff (parse : Parse A4 A6) (stream : SourceStream) :
    (∀ fuel access, checkedCall parse fuel stream ≠ .error access) ↔
      0 < stream.sizes 0 ∧ stream.rest ≠ [] := by
  constructor
  · intro within
    by_contra h
    exact within 0 _ (checkedCall_empty parse 0 h)
  · intro h fuel access
    obtain ⟨outcome, run, -⟩ := checkedCall_ok parse fuel h
    rw [run]
    exact nofun

/-- A client that connects and closes. -/
theorem closed_at_once_out_of_bounds :
    let parse : Parse Unit Unit := fun _ => .error .notProxyHeader
    checkedCall parse 0 ⟨[], fun _ => 1⟩ = .error ⟨0, 1, 0⟩ := by
  intro parse
  exact checkedCall_empty parse 0 fun h => h.2 rfl

end Monolake.ProxyProtocol
