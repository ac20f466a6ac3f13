import Monolake.Common.Detect
import Monolake.Foundation.Reader

/-!
The detectors on any reader, and the service that hands on what they have detected. A run
on a reader cannot be told from one on a source stream whose reads have the same sizes.
-/
namespace Monolake.Common

universe u v w x y
open Foundation ProxyProtocol
open Reader (read yields)

instance : Reader SourceStream UInt8 Empty where
  read stream requested := .ok (stream.read requested)
  yields := SourceStream.rest

instance : LawfulReader SourceStream UInt8 Empty where
  append {r r' n items} h := by
    have read : r.read n = (items, r') := Except.ok.inj h
    have conserved := read_append r n
    rwa [read] at conserved
  length_le {r r' n items} h := by
    have read : r.read n = (items, r') := Except.ok.inj h
    have bound := read_length_le r n
    rwa [read] at bound
  nil {r r' n} h := by
    have read : r.read n = ([], r') := Except.ok.inj h
    exact read_nil (congrArg Prod.fst read)

section
variable {R : Type u} {E : Type w} [Reader R UInt8 E]

/-- `PrefixDetector::detect`; `none` while it has not ended. -/
def PrefixDetector.detectOn (self : PrefixDetector) :
    Nat → Nat → List UInt8 → R → Option (Except E (Bool × Prefixed R UInt8))
  | 0, _, _, _ => none
  | fuel + 1, written, buf, io =>
      let l := self.pattern.length
      match read io (l - written) with
      | .error e => some (.error e)
      | .ok (bytes, io) =>
          let buf := buf ++ bytes
          let finish (eq : Bool) (written : Nat) : Option (Except E (Bool × Prefixed R UInt8)) :=
            some (.ok (eq && decide (written = l), { first := buf, behind := io }))
          if bytes.length = 0 then finish true written
          else
            let curr := written
            let written := written + bytes.length
            if slice self.pattern curr written ≠ slice buf curr written then finish false written
            else self.detectOn fuel written buf io

/-- `DetOut` is what `f` returns for the bytes, which it can change. -/
structure FixedLengthDetector (DetOut : Type x) where
  n : Nat
  f : List UInt8 → DetOut × List UInt8

def FixedLengthDetector.detectOn {DetOut : Type x} (self : FixedLengthDetector DetOut) (eof : E)
    (fuel : Nat) (io : R) : Option (Except E (DetOut × Prefixed R UInt8)) :=
  (readExact eof self.n fuel io []).map fun read => read.map fun (buf, io) =>
    let (r, buf) := self.f buf
    (r, { first := buf, behind := io })

end

inductive DetectError (ES : Type x) (E : Type w) where
  | svc (e : ES)
  | io (e : E)

/-- `DetectService::call` -/
def detectService {R Det R' CX Resp ES E : Type u}
    (detect : R → Option (Except E (Det × R')))
    (inner : Det → R' → CX → Except ES Resp) (io : R) (cx : CX) :
    Option (Except (DetectError ES E) Resp) :=
  (detect io).map fun detected =>
    match detected with
    | .error e => .error (.io e)
    | .ok (det, io) => (inner det io cx).mapError .svc

section
variable {R : Type u} {E : Type w} [Reader R UInt8 E] [LawfulReader R UInt8 E]

/-- The sizes of a read and of those after it. -/
def sizesFrom (size : Nat) (sizes : Nat → Nat) : Nat → Nat
  | 0 => size
  | i + 1 => sizes i

/-- A read, as one of a source stream. -/
theorem read_asSource {r r' : R} {n : Nat} {bytes : List UInt8}
    (h : read r n = .ok (bytes, r')) (sizes : Nat → Nat) :
    SourceStream.read ⟨yields r, sizesFrom bytes.length sizes⟩ n =
      (bytes, ⟨yields r', sizes⟩) := by
  have conserved := LawfulReader.append h
  have bound := LawfulReader.length_le h
  have length := Reader.length_yields h
  have size : min (max 1 bytes.length) (min n (yields r).length) = bytes.length := by
    by_cases none : bytes = []
    · subst none
      rcases LawfulReader.nil h with rfl | ended
      · simp
      · simp [ended]
    · have brings := List.length_pos_of_ne_nil none
      omega
  simp only [SourceStream.read, sizesFrom, size]
  rw [← conserved, List.take_left, List.drop_left]

/-- A detection, as one on a source stream. -/
theorem PrefixDetector.detectOn_asSource (self : PrefixDetector) {fuel written : Nat}
    {buf : List UInt8} {io : R} {det : Bool} {io' : Prefixed R UInt8}
    (h : self.detectOn fuel written buf io = some (.ok (det, io')))
    (reads : List (List UInt8)) :
    ∃ sizes detection,
      self.detectLoop fuel written buf ⟨yields io, sizes⟩ reads = some detection ∧
        detection.detOut = det ∧ detection.ioOut.yields = yields io' := by
  induction fuel generalizing written buf io reads with
  | zero => cases h
  | succ fuel ih =>
      rw [detectOn] at h
      cases hread : read io (self.pattern.length - written) with
      | error e => simp [hread] at h
      | ok next =>
          obtain ⟨bytes, behind⟩ := next
          simp only [hread] at h
          have found : ∀ det', some (.ok (det', { first := buf ++ bytes, behind })) =
              (some (.ok (det, io')) : Option (Except E (Bool × Prefixed R UInt8))) →
              det' = det ∧ buf ++ bytes ++ yields behind = yields io' := by
            intro det' same
            obtain ⟨rfl, rfl⟩ := Prod.mk.inj (Except.ok.inj (Option.some.inj same))
            exact ⟨rfl, rfl⟩
          split at h
          · rename_i none
            refine ⟨sizesFrom bytes.length fun _ => 0, ?_⟩
            rw [detectLoop, read_asSource hread]
            simp only [if_pos none]
            exact ⟨_, rfl, found _ h⟩
          · rename_i some_bytes
            split at h
            · rename_i differs
              refine ⟨sizesFrom bytes.length fun _ => 0, ?_⟩
              rw [detectLoop, read_asSource hread]
              simp only [if_neg some_bytes, if_pos differs]
              exact ⟨_, rfl, found _ h⟩
            · rename_i matches_
              obtain ⟨sizes, detection, runs, same⟩ := ih h (reads ++ [bytes])
              refine ⟨sizesFrom bytes.length sizes, detection, ?_, same⟩
              rw [detectLoop, read_asSource hread]
              simp only [if_neg some_bytes, if_neg matches_]
              exact runs

/-- As many rounds as the pattern has bytes, and one more, are enough. -/
theorem PrefixDetector.detectOn_ends (self : PrefixDetector) {fuel written : Nat}
    {buf : List UInt8} {io : R} (enough : self.pattern.length - written < fuel) :
    ∃ out, self.detectOn fuel written buf io = some out := by
  induction fuel generalizing written buf io with
  | zero => exact absurd enough (Nat.not_lt_zero _)
  | succ fuel ih =>
      rw [detectOn]
      cases hread : read io (self.pattern.length - written) with
      | error e => exact ⟨_, rfl⟩
      | ok next =>
          obtain ⟨bytes, behind⟩ := next
          have bound := LawfulReader.length_le hread
          dsimp only
          split
          · exact ⟨_, rfl⟩
          · split
            · exact ⟨_, rfl⟩
            · exact ih (by omega)

/-- Whatever the reader is and however it brings its bytes: the detection ends, and unless a
read fails it tells whether they start with the pattern, and loses none of them. -/
theorem prefix_detectedOn (self : PrefixDetector) (io : R) :
    ∃ out, self.detectOn (self.pattern.length + 1) 0 [] io = some out ∧
      ∀ det io', out = .ok (det, io') →
        (det = true ↔ self.pattern <+: yields io) ∧ yields io' = yields io := by
  have ends : ∃ out, self.detectOn (self.pattern.length + 1) 0 [] io = some out :=
    self.detectOn_ends (Nat.lt_succ_self _)
  obtain ⟨out, runs⟩ := ends
  refine ⟨out, runs, fun det io' ok => ?_⟩
  obtain ⟨sizes, detection, source, rfl, same⟩ := self.detectOn_asSource (ok ▸ runs) []
  obtain ⟨detection', runs', answer, replays, -⟩ := prefix_detected self (yields io) sizes
  obtain rfl : detection = detection' :=
    Option.some.inj (source.symm.trans (runs' _ (Nat.lt_succ_self _)))
  exact ⟨answer, same.symm.trans replays⟩

/-- The first bytes are handed to the function, and come back as it leaves them. -/
theorem fixedLength_detected {DetOut : Type x} (self : FixedLengthDetector DetOut) (eof : E)
    (io : R) :
    ∃ out, self.detectOn eof (self.n + 1) io = some out ∧
      ∀ det io', out = .ok (det, io') →
        self.n ≤ (yields io).length ∧ det = (self.f ((yields io).take self.n)).1 ∧
          yields io' = (self.f ((yields io).take self.n)).2 ++ (yields io).drop self.n := by
  have empty : ([] : List UInt8).length ≤ self.n := Nat.zero_le _
  have enough : self.n - ([] : List UInt8).length < self.n + 1 := Nat.lt_succ_self self.n
  obtain ⟨out, runs, all⟩ := readExact_spec eof self.n (r := io) empty enough
  refine ⟨_, by rw [FixedLengthDetector.detectOn, runs, Option.map_some], fun det io' ok => ?_⟩
  cases out with
  | error e => cases ok
  | ok out =>
      obtain ⟨got, behind⟩ := out
      obtain ⟨length, whole⟩ := all got behind rfl
      obtain ⟨rfl, rfl⟩ := Prod.mk.inj (Except.ok.inj ok)
      rw [List.nil_append] at whole
      rw [← whole, ← length, List.take_left, List.drop_left, List.length_append]
      exact ⟨Nat.le_add_right .., rfl, rfl⟩

end

end Monolake.Common
