import Mathlib.Data.List.Basic

/-!
The PROXY-protocol service on one connection: a first read, a look at the magic,
and a loop of parsing and reading into a buffer of bounded size. The parser of
the external crate is a parameter. Reads do not fail; the sizes they come in are
the stream's own.
-/
namespace Monolake.ProxyProtocol

universe u
variable {A4 A6 : Type u}

def v1Header : List UInt8 := [0x50, 0x52, 0x4F, 0x58, 0x59, 0x20]

def v2Header : List UInt8 :=
  [0x0D, 0x0A, 0x0D, 0x0A, 0x00, 0x0D, 0x0A, 0x51, 0x55, 0x49, 0x54, 0x0A]

def maxHeaderSize : Nat := 230

/-- `version1::ParseError` and `version2::ParseError`. -/
inductive VersionError where
  | unexpectedEof
  | other

inductive ParseError where
  | notProxyHeader
  | version1 (source : VersionError)
  | version2 (source : VersionError)
  | other

/-- Data is not enough to parse a version: the loop reads again. -/
def ParseError.dataNotEnough : ParseError → Bool
  | .notProxyHeader | .version1 .unexpectedEof | .version2 .unexpectedEof => true
  | _ => false

inductive ProxyAddresses (A4 A6 : Type u) where
  | ipv4 (source destination : A4)
  | ipv6 (source destination : A6)
  | other

inductive ProxyHeader (A4 A6 : Type u) where
  | version1 (addresses : ProxyAddresses A4 A6)
  | version2 (addresses : ProxyAddresses A4 A6)

inductive RemoteAddr (A4 A6 : Type u) where
  | ipv4 (source : A4)
  | ipv6 (source : A6)

def ProxyHeader.remoteAddr : ProxyHeader A4 A6 → Option (RemoteAddr A4 A6)
  | .version1 (.ipv4 source _) | .version2 (.ipv4 source _) => some (.ipv4 source)
  | .version1 (.ipv6 source _) | .version2 (.ipv6 source _) => some (.ipv6 source)
  | _ => none

/-- `parse` on a cursor at the start of the buffer: the header and the position
the cursor is left at. -/
abbrev Parse (A4 A6 : Type u) := List UInt8 → Except ParseError (ProxyHeader A4 A6 × Nat)

/-- The bytes still to come, and how many each coming read would bring. -/
structure SourceStream where
  rest : List UInt8
  sizes : Nat → Nat

namespace SourceStream

/-- A read brings at least one byte and at most what is requested, and none only
at the end of the stream or when none is requested. -/
def read (stream : SourceStream) (requested : Nat) : List UInt8 × SourceStream :=
  let n := min (max 1 (stream.sizes 0)) (min requested stream.rest.length)
  (stream.rest.take n, { rest := stream.rest.drop n, sizes := fun i => stream.sizes (i + 1) })

end SourceStream

/-- `bytes[start..stop]` -/
def slice (bytes : List UInt8) (start stop : Nat) : List UInt8 := (bytes.take stop).drop start

/-- Match version magic header, as far as it has been read. -/
def targetHeader (first : UInt8) (buffer : List UInt8) : Option (List UInt8) :=
  if first = 0x50 then
    let stop := min buffer.length v1Header.length
    if slice buffer 1 stop = slice v1Header 1 stop then some v1Header else none
  else if first = 0x0D then
    let stop := min buffer.length v2Header.length
    if slice buffer 1 stop = slice v2Header 1 stop then some v2Header else none
  else none

inductive LoopExit (A4 A6 : Type u) where
  | broke (header : Except ParseError (ProxyHeader A4 A6 × Nat))
  | returned (e : ParseError)

/-- loop {parse; read; check_full;}: `pos` is always the length of the buffer. -/
def headerLoop (parse : Parse A4 A6) (target : List UInt8) :
    Nat → List UInt8 → SourceStream → Option (LoopExit A4 A6 × List UInt8 × SourceStream)
  | 0, _, _ => none
  | fuel + 1, buffer, stream =>
      match parse buffer with
      | .ok (header, idx) => some (.broke (.ok (header, idx)), buffer, stream)
      | .error e =>
          if e.dataNotEnough then
            let pos := buffer.length
            let (bytes, stream) := stream.read (maxHeaderSize - pos)
            let buffer := buffer ++ bytes
            let stop := min target.length (pos + bytes.length)
            -- `NotProxyHeader` does not always mean data is not enough
            if pos < target.length ∧ slice buffer pos stop ≠ slice target pos stop then
              some (.broke (.error e), buffer, stream)
            else if pos + bytes.length = maxHeaderSize then
              some (.returned .notProxyHeader, buffer, stream)
            else headerLoop parse target fuel buffer stream
          else some (.broke (.error e), buffer, stream)

/-- `inner`: the service behind is called with this address and this stream. -/
inductive Outcome (A4 A6 : Type u) where
  | inner (remoteAddr : Option (RemoteAddr A4 A6)) (stream : List UInt8)
  | failed (e : ParseError)
  | panicked

/-- The unread part of the buffer is put in front of the stream. -/
def callInner (parsed : Option (Except ParseError (ProxyHeader A4 A6 × Nat)))
    (buffer : List UInt8) (stream : SourceStream) : Outcome A4 A6 :=
  match parsed with
  | some (.ok (header, idx)) => .inner header.remoteAddr (buffer.drop idx ++ stream.rest)
  | _ => .inner none (buffer ++ stream.rest)

def afterLoop : LoopExit A4 A6 × List UInt8 × SourceStream → Outcome A4 A6
  | (.returned e, _, _) => .failed e
  | (.broke parsed, buffer, stream) => callInner (some parsed) buffer stream

def call (parse : Parse A4 A6) (fuel : Nat) (stream : SourceStream) : Option (Outcome A4 A6) :=
  let (buffer, stream) := stream.read maxHeaderSize
  match buffer[0]? with
  | none => some .panicked  -- `buffer[0]` of an empty buffer
  | some first =>
      match targetHeader first buffer with
      | none => some (callInner none buffer stream)
      | some target => (headerLoop parse target fuel buffer stream).map afterLoop

/-- The call of the service comes to an end, this way. -/
def Ends (parse : Parse A4 A6) (stream : SourceStream) (outcome : Outcome A4 A6) : Prop :=
  ∃ fuel, call parse fuel stream = some outcome

end Monolake.ProxyProtocol
