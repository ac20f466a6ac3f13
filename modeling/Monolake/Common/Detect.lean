import Monolake.ProxyProtocol.Cuts

/-!
Detecting a prefix of a stream. The bytes are read into a buffer of the length
of the pattern, and only the bytes that a read has brought are compared; the
stream behind the detector yields the buffer first.
-/
namespace Monolake.Common

open ProxyProtocol (SourceStream slice)

/-- The bytes behind the cursor, and then those of `io`. -/
structure PrefixedReadIo where
  io : SourceStream
  cursor : List UInt8

def PrefixedReadIo.yields (io : PrefixedReadIo) : List UInt8 := io.cursor ++ io.io.rest

/-- What `detect` returns, and what each of its reads brought. -/
structure Detection where
  detOut : Bool
  ioOut : PrefixedReadIo
  reads : List (List UInt8)

/-- `PrefixDetector` -/
structure PrefixDetector where
  pattern : List UInt8

namespace PrefixDetector

def detectLoop (self : PrefixDetector) :
    Nat → Nat → List UInt8 → SourceStream → List (List UInt8) → Option Detection
  | 0, _, _, _, _ => none
  | fuel + 1, written, buf, io, reads =>
      let l := self.pattern.length
      let (bytes, io) := io.read (l - written)
      let buf := buf ++ bytes
      let reads := reads ++ [bytes]
      let finish (eq : Bool) (written : Nat) : Option Detection :=
        some { detOut := eq && decide (written = l), ioOut := { io, cursor := buf }, reads }
      if bytes.length = 0 then finish true written
      else
        let curr := written
        let written := written + bytes.length
        if slice self.pattern curr written ≠ slice buf curr written then finish false written
        else detectLoop self fuel written buf io reads

/-- `none` while the loop has not ended. -/
def detect (self : PrefixDetector) (fuel : Nat) (io : SourceStream) : Option Detection :=
  detectLoop self fuel 0 [] io []

end PrefixDetector

/-- `b"PRI * HTTP/2.0\r\n\r\nSM\r\n\r\n"` -/
def preface : List UInt8 :=
  [0x50, 0x52, 0x49, 0x20, 0x2A, 0x20, 0x48, 0x54, 0x54, 0x50, 0x2F, 0x32, 0x2E, 0x30, 0x0D, 0x0A,
    0x0D, 0x0A, 0x53, 0x4D, 0x0D, 0x0A, 0x0D, 0x0A]

/-- The detector of `H2Detect`. -/
def h2Detector : PrefixDetector := { pattern := preface }

/-- A byte of this read differs from the pattern at its place. -/
def Mismatches (pattern : List UInt8) (past : List (List UInt8)) (bytes : List UInt8) : Prop :=
  ∃ (i : Nat) (h : i < bytes.length), pattern[past.flatten.length + i]? ≠ some bytes[i]

theorem not_mismatches {pattern : List UInt8} {past : List (List UInt8)} {bytes : List UInt8}
    (h : past.flatten ++ bytes <+: pattern) : ¬ Mismatches pattern past bytes := by
  rintro ⟨i, hi, differs⟩
  refine differs ?_
  have inside : past.flatten.length + i < (past.flatten ++ bytes).length := by
    rw [List.length_append]
    omega
  rw [List.prefix_iff_getElem?.mp h _ inside, List.getElem_append_right (Nat.le_add_right ..)]
  simp

/-- The bytes that a read has added are compared as the whole buffer would be. -/
theorem window_matches_iff {pattern buf bytes : List UInt8} (h : buf <+: pattern) :
    slice pattern buf.length (buf.length + bytes.length) =
        slice (buf ++ bytes) buf.length (buf.length + bytes.length) ↔
      buf ++ bytes <+: pattern := by
  have before : pattern.take buf.length = (buf ++ bytes).take buf.length := by
    rw [List.take_left, ← List.prefix_iff_eq_take.mp h]
  have whole := ProxyProtocol.take_eq_iff_slice pattern (buf ++ bytes)
    (Nat.le_add_right buf.length bytes.length)
  rw [← List.length_append, List.take_length] at whole
  rw [List.prefix_iff_eq_take, eq_comm (a := buf ++ bytes), whole, List.length_append]
  exact (and_iff_right before).symm

/-- Before a read: what was read is in the buffer, and is a part of the pattern. -/
structure Matching (pattern s buf : List UInt8) (io : SourceStream) (reads : List (List UInt8)) :
    Prop where
  buffered : reads.flatten = buf
  matched : buf <+: pattern
  whole : buf ++ io.rest = s

/-- What the detection of a pattern on a stream must come to. -/
structure Detects (pattern s : List UInt8) (out : Detection) : Prop where
  answer : out.detOut = true ↔ pattern <+: s
  replays : out.ioOut.yields = s
  taken : out.reads.flatten ++ out.ioOut.io.rest = s
  bounded : out.reads.flatten.length ≤ pattern.length
  stops : ∀ past bytes rest, out.reads = past ++ bytes :: rest →
    Mismatches pattern past bytes → rest = []

section
variable {pattern s buf : List UInt8} {io : SourceStream} {reads : List (List UInt8)}

/-- No read before has brought a byte that differs. -/
theorem Matching.no_mismatch (h : Matching pattern s buf io reads) {past : List (List UInt8)}
    {bytes : List UInt8} {rest : List (List UInt8)} (hreads : reads = past ++ bytes :: rest) :
    ¬ Mismatches pattern past bytes := by
  refine not_mismatches (List.IsPrefix.trans ?_ h.matched)
  rw [← h.buffered, hreads, List.flatten_append, List.flatten_cons, ← List.append_assoc]
  exact List.prefix_append ..

/-- After one more read, only that read can have brought a byte that differs. -/
theorem Matching.last_only (h : Matching pattern s buf io reads) {last bytes : List UInt8}
    {past later : List (List UInt8)} (hreads : reads ++ [last] = past ++ bytes :: later)
    (mismatch : Mismatches pattern past bytes) : later = [] := by
  obtain rfl | ⟨between, final, rfl⟩ := List.eq_nil_or_concat later
  · rfl
  · have split : reads ++ [last] = (past ++ bytes :: between) ++ [final] := by
      rw [hreads, List.concat_eq_append, List.append_assoc]
      rfl
    exact absurd mismatch (h.no_mismatch (List.append_inj_left' split rfl))

/-- A read that brings nothing: the pattern is there if all of it was matched. -/
theorem Matching.ended (h : Matching pattern s buf io reads) {behind : SourceStream}
    (rest : behind.rest = io.rest) (reason : pattern.length - buf.length = 0 ∨ io.rest = []) :
    Detects pattern s { detOut := decide (buf.length = pattern.length)
                        ioOut := { io := behind, cursor := buf }
                        reads := reads ++ [[]] } := by
  have read : (reads ++ [[]]).flatten = buf := by
    rw [List.flatten_append, h.buffered]
    simp
  have short := h.matched.length_le
  refine ⟨?_, ?_, ?_, ?_, ?_⟩
  · rw [decide_eq_true_iff]
    constructor
    · intro all
      rw [← h.matched.eq_of_length all, ← h.whole]
      exact List.prefix_append ..
    · intro starts
      rcases reason with full | done
      · omega
      · have length := starts.length_le
        rw [← h.whole, done, List.append_nil] at length
        omega
  · rw [PrefixedReadIo.yields, rest, h.whole]
  · rw [read, rest, h.whole]
  · rw [read]
    exact short
  · exact fun past bytes later hreads mismatch => h.last_only hreads mismatch

/-- A read that brings a byte that differs: the pattern is not there. -/
theorem Matching.mismatched (h : Matching pattern s buf io reads) {bytes : List UInt8}
    {behind : SourceStream} (rest : bytes ++ behind.rest = io.rest)
    (bounded : buf.length + bytes.length ≤ pattern.length) (differs : ¬ buf ++ bytes <+: pattern) :
    Detects pattern s { detOut := false
                        ioOut := { io := behind, cursor := buf ++ bytes }
                        reads := reads ++ [bytes] } := by
  have read : (reads ++ [bytes]).flatten = buf ++ bytes := by
    rw [List.flatten_append, h.buffered]
    simp
  have whole : (buf ++ bytes) ++ behind.rest = s := by
    rw [List.append_assoc, rest, h.whole]
  refine ⟨?_, whole, ?_, ?_, ?_⟩
  · refine iff_of_false Bool.false_ne_true fun starts => differs ?_
    refine List.prefix_of_prefix_length_le (whole ▸ List.prefix_append ..) starts ?_
    rw [List.length_append]
    exact bounded
  · rw [read, whole]
  · rw [read, List.length_append]
    exact bounded
  · exact fun past bytes later hreads mismatch => h.last_only hreads mismatch

/-- A read that brings a further part of the pattern. -/
theorem Matching.read (h : Matching pattern s buf io reads) {bytes : List UInt8}
    {behind : SourceStream} (rest : bytes ++ behind.rest = io.rest)
    (matched : buf ++ bytes <+: pattern) :
    Matching pattern s (buf ++ bytes) behind (reads ++ [bytes]) := by
  refine ⟨?_, matched, ?_⟩
  · rw [List.flatten_append, h.buffered]
    simp
  · rw [List.append_assoc, rest, h.whole]

end

namespace PrefixDetector

/-- From any point of a detection, as many rounds as bytes are missing, and one
more, are enough. -/
theorem detectLoop_detects (self : PrefixDetector) {s buf : List UInt8} {io : SourceStream}
    {reads : List (List UInt8)} (h : Matching self.pattern s buf io reads) :
    ∃ out, Detects self.pattern s out ∧ ∀ fuel, self.pattern.length - buf.length < fuel →
      self.detectLoop fuel buf.length buf io reads = some out := by
  induction hn : self.pattern.length - buf.length using Nat.strongRecOn
    generalizing buf io reads with
  | ind n ih =>
      have rest := ProxyProtocol.read_append io (self.pattern.length - buf.length)
      have bound := ProxyProtocol.read_length_le io (self.pattern.length - buf.length)
      have nothing := @ProxyProtocol.read_nil io (self.pattern.length - buf.length)
      have short := h.matched.length_le
      have step : ∀ fuel, self.detectLoop (fuel + 1) buf.length buf io reads =
          let (bytes, behind) := io.read (self.pattern.length - buf.length)
          if bytes.length = 0 then
            some { detOut := decide (buf.length = self.pattern.length)
                   ioOut := { io := behind, cursor := buf ++ bytes }, reads := reads ++ [bytes] }
          else if ¬ buf ++ bytes <+: self.pattern then
            some { detOut := false, ioOut := { io := behind, cursor := buf ++ bytes }
                   reads := reads ++ [bytes] }
          else self.detectLoop fuel (buf ++ bytes).length (buf ++ bytes) behind
            (reads ++ [bytes]) := by
        intro fuel
        simp only [detectLoop, Bool.true_and, Bool.false_and, List.length_append]
        rw [if_congr (not_congr (window_matches_iff h.matched)) rfl rfl]
      revert rest bound nothing step
      generalize io.read (self.pattern.length - buf.length) = read
      obtain ⟨bytes, behind⟩ := read
      intro rest bound nothing step
      dsimp only at rest bound nothing step
      by_cases hnil : bytes = []
      · subst hnil
        refine ⟨_, h.ended rest (nothing rfl), fun fuel hfuel => ?_⟩
        obtain ⟨fuel, rfl⟩ := Nat.exists_eq_succ_of_ne_zero (Nat.ne_zero_of_lt hfuel)
        rw [step, if_pos List.length_nil, List.append_nil]
      · have some_bytes : 0 < bytes.length := List.length_pos_of_ne_nil hnil
        by_cases matched : buf ++ bytes <+: self.pattern
        · have longer : (buf ++ bytes).length = buf.length + bytes.length := List.length_append
          obtain ⟨out, detects, runs⟩ := ih _ (by omega) (h.read rest matched) rfl
          refine ⟨out, detects, fun fuel hfuel => ?_⟩
          obtain ⟨fuel, rfl⟩ := Nat.exists_eq_succ_of_ne_zero (Nat.ne_zero_of_lt hfuel)
          rw [step, if_neg (Nat.ne_of_gt some_bytes), if_neg (not_not.mpr matched)]
          exact runs fuel (by omega)
        · refine ⟨_, h.mismatched rest (by omega) matched, fun fuel hfuel => ?_⟩
          obtain ⟨fuel, rfl⟩ := Nat.exists_eq_succ_of_ne_zero (Nat.ne_zero_of_lt hfuel)
          rw [step, if_neg (Nat.ne_of_gt some_bytes), if_pos matched]

end PrefixDetector

/-- However the stream is split into reads: the detection ends; it answers whether
the stream starts with the pattern; what it returns yields the stream; it takes
no more bytes than the pattern has; and it does not read on after a byte that
differs. -/
theorem prefix_detected (self : PrefixDetector) (s : List UInt8) (sizes : Nat → Nat) :
    ∃ out, (∀ fuel, self.pattern.length < fuel → self.detect fuel ⟨s, sizes⟩ = some out) ∧
      (out.detOut = true ↔ self.pattern <+: s) ∧ out.ioOut.yields = s ∧
      (out.reads.flatten ++ out.ioOut.io.rest = s ∧
        out.reads.flatten.length ≤ self.pattern.length) ∧
      ∀ past bytes rest, out.reads = past ++ bytes :: rest →
        Mismatches self.pattern past bytes → rest = [] := by
  have start : Matching self.pattern s [] ⟨s, sizes⟩ [] :=
    ⟨rfl, List.nil_prefix, List.nil_append s⟩
  obtain ⟨out, detects, runs⟩ := self.detectLoop_detects start
  exact ⟨out, runs, detects.answer, detects.replays, ⟨detects.taken, detects.bounded⟩,
    detects.stops⟩

/-- The preface in two reads, and a request line that starts like it. -/
example : ((h2Detector.detect 3 ⟨preface ++ [0x61], fun _ => 20⟩).map (·.detOut),
    (h2Detector.detect 3 ⟨[0x50, 0x4F, 0x53, 0x54], fun _ => 20⟩).map (·.reads.length)) =
      (some true, some 1) := by decide

end Monolake.Common
