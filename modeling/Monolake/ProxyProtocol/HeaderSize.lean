import Monolake.ProxyProtocol.Termination

/-!
Which headers without extensions the buffer has room for. A version 2 header
with Unix addresses is longer than the buffer: the read that fills it ends the
call.
-/
namespace Monolake.ProxyProtocol

universe u
variable {A4 A6 : Type u}

inductive Command where
  | local
  | proxy

def Command.byte : Command → UInt8
  | .local => 0x20
  | .proxy => 0x21

inductive Transport where
  | unspec
  | stream
  | dgram

def Transport.bits : Transport → UInt8
  | .unspec => 0x0
  | .stream => 0x1
  | .dgram => 0x2

/-- The address block of a version 2 header, of the length its family has. -/
inductive AddressBlock where
  | unspec
  | ipv4 (block : Vector UInt8 12)
  | ipv6 (block : Vector UInt8 36)
  | unix (block : Vector UInt8 216)

namespace AddressBlock

def familyBits : AddressBlock → UInt8
  | unspec => 0x00
  | ipv4 _ => 0x10
  | ipv6 _ => 0x20
  | unix _ => 0x30

def bytes : AddressBlock → List UInt8
  | unspec => []
  | ipv4 block => block.toList
  | ipv6 block => block.toList
  | unix block => block.toList

def IsUnix : AddressBlock → Prop
  | unix _ => True
  | _ => False

end AddressBlock

/-- A header as the specification has it, without extensions: a line of at most
107 bytes, or the fixed part and an address block. -/
inductive WireHeader where
  | v1 (text : List UInt8) (fits : (v1Header ++ text ++ [0x0D, 0x0A]).length ≤ 107)
  | v2 (command : Command) (transport : Transport) (block : AddressBlock)

namespace WireHeader

def magic : WireHeader → List UInt8
  | v1 .. => v1Header
  | v2 .. => v2Header

/-- What follows the magic. -/
def body : WireHeader → List UInt8
  | v1 text _ => text ++ [0x0D, 0x0A]
  | v2 command transport block =>
      [command.byte, block.familyBits ||| transport.bits, 0x00, block.bytes.length.toUInt8] ++
        block.bytes

def bytes (header : WireHeader) : List UInt8 := header.magic ++ header.body

/-- A version 2 header with Unix addresses. -/
def IsUnix : WireHeader → Prop
  | v1 .. => False
  | v2 _ _ block => block.IsUnix

/-- Sixteen bytes and the address block. -/
theorem unix_length {header : WireHeader} (unix : header.IsUnix) : header.bytes.length = 232 := by
  cases header with
  | v1 text fits => exact unix.elim
  | v2 command transport block =>
      cases block with
      | unix block => simp [bytes, magic, body, AddressBlock.bytes, v2Header]
      | unspec | ipv4 | ipv6 => exact unix.elim

/-- Only a header with Unix addresses does not fit the buffer. -/
theorem length_lt_iff (header : WireHeader) :
    header.bytes.length < maxHeaderSize ↔ ¬ header.IsUnix := by
  cases header with
  | v1 text fits =>
      simp only [bytes, magic, body, IsUnix, not_false_eq_true, iff_true, ← List.append_assoc]
      exact Nat.lt_of_le_of_lt fits (by decide)
  | v2 command transport block =>
      cases block <;> simp [bytes, magic, body, IsUnix, AddressBlock.IsUnix, AddressBlock.bytes,
        v2Header, maxHeaderSize]

/-- A stream that starts with a header is taken for one, wherever it is cut. -/
theorem glance_bytes (header : WireHeader) (payload : List UInt8) {k : Nat} (h : 0 < k)
    (hk : k ≤ (header.bytes ++ payload).length) :
    glance (header.bytes ++ payload) k = some header.magic := by
  have matched : Matches header.magic (header.bytes ++ payload) k := by
    rw [Matches, bytes, List.append_assoc]
    exact List.take_append_of_le_length (Nat.min_le_right ..)
  cases header with
  | v1 text fits =>
      have := @glance_cons 0x50 (v1Header.tail ++ (v1 text fits).body ++ payload) k h hk
      exact this.trans (if_pos rfl |>.trans (if_pos matched))
  | v2 command transport block =>
      have := @glance_cons 0x0D
        (v2Header.tail ++ (v2 command transport block).body ++ payload) k h hk
      exact this.trans (if_neg (by decide) |>.trans (if_pos rfl |>.trans (if_pos matched)))

end WireHeader

/-- `parse` accepts a header exactly when all of it is there, and asks for more
before. -/
structure ParsesExactly (parse : Parse A4 A6) (bytes : List UInt8) : Prop where
  accepts : ∃ header, parse bytes = .ok (header, bytes.length)
  incomplete : ∀ n < bytes.length, ∃ e, parse (bytes.take n) = .error e ∧ e.dataNotEnough = true

/-- Of the reads from a cut on, none ends behind `stop` that begins before it. -/
def NoReadCrosses (s : List UInt8) (stop k : Nat) (sizes : Nat → Nat) : Prop :=
  ∀ n, cutAfter s k sizes n < stop → cutAfter s k sizes (n + 1) ≤ stop

section
variable {parse : Parse A4 A6} {header : WireHeader} {payload : List UInt8}

theorem NoReadCrosses.next {s : List UInt8} {stop k : Nat} {sizes : Nat → Nat}
    (h : NoReadCrosses s stop k sizes) :
    NoReadCrosses s stop (nextCut s k (sizes 0)) fun i => sizes (i + 1) :=
  fun n => h (n + 1)

/-- A part of a header leaves everything open. -/
theorem undecided_in_header (exact : ParsesExactly parse header.bytes) {k : Nat} (h : 0 < k)
    (hk : k < header.bytes.length) : decision parse (header.bytes ++ payload) k = none := by
  obtain ⟨e, he, more⟩ := exact.incomplete k hk
  have long : k ≤ (header.bytes ++ payload).length := by
    rw [List.length_append]
    omega
  have part : (header.bytes ++ payload).take k = header.bytes.take k :=
    List.take_append_of_le_length (Nat.le_of_lt hk)
  simp [decision, header.glance_bytes payload h long, part, he, more]

/-- A header that is there as a whole is taken off. -/
theorem decided_behind_header (exact : ParsesExactly parse header.bytes)
    (h : 0 < header.bytes.length) :
    ∃ remoteAddr, decision parse (header.bytes ++ payload) header.bytes.length =
      some (remoteAddr, payload) := by
  obtain ⟨accepted, hparse⟩ := exact.accepts
  have long : header.bytes.length ≤ (header.bytes ++ payload).length := by
    rw [List.length_append]
    omega
  exact ⟨accepted.remoteAddr, by
    simp [decision, header.glance_bytes payload h long, hparse]⟩

/-- Reads that stop behind the header come to it, if the buffer has room. -/
theorem cutLoop_to_header (exact : ParsesExactly parse header.bytes)
    (fits : header.bytes.length < maxHeaderSize) {k : Nat} (h : 0 < k)
    (hk : k ≤ header.bytes.length) {sizes : Nat → Nat}
    (whole : NoReadCrosses (header.bytes ++ payload) header.bytes.length k sizes) :
    ∃ fuel remoteAddr, cutLoop parse (header.bytes ++ payload) fuel k sizes =
      some (.inner remoteAddr payload) := by
  induction hn : header.bytes.length - k using Nat.strongRecOn generalizing k sizes with
  | ind n ih =>
      by_cases hend : k = header.bytes.length
      · subst hend
        obtain ⟨remoteAddr, hd⟩ := @decided_behind_header _ _ _ _ payload exact h
        exact ⟨1, remoteAddr, cutLoop_decided hd 0 sizes⟩
      · have inside : k < header.bytes.length := by omega
        have hd := @undecided_in_header _ _ _ _ payload exact k h inside
        have long : header.bytes.length ≤ (header.bytes ++ payload).length := by
          rw [List.length_append]
          omega
        have hm := lt_nextCut (header.bytes ++ payload) (sizes 0) (k := k) (by omega) (by omega)
        have stop : nextCut (header.bytes ++ payload) k (sizes 0) ≤ header.bytes.length :=
          whole 0 inside
        have hg : glance (header.bytes ++ payload) (nextCut (header.bytes ++ payload) k (sizes 0)) ≠
            none := by
          rw [header.glance_bytes payload (by omega) (by omega)]
          exact Option.some_ne_none _
        have hfull : nextCut (header.bytes ++ payload) k (sizes 0) ≠ maxHeaderSize := by omega
        obtain ⟨fuel, remoteAddr, hrun⟩ := ih _ (by omega) (by omega) stop whole.next rfl
        exact ⟨fuel + 1, remoteAddr, by simp only [cutLoop, hd, if_neg hg, if_neg hfull, hrun]⟩

/-- The read that fills the buffer with a part of a header ends the call. -/
theorem unix_header_fails (exact : ParsesExactly parse header.bytes) (unix : header.IsUnix)
    (sizes : Nat → Nat) :
    Ends parse ⟨header.bytes ++ payload, sizes⟩ (.failed .notProxyHeader) := by
  have size := WireHeader.unix_length unix
  have length : (header.bytes ++ payload).length = 232 + payload.length := by
    rw [List.length_append, size]
  have nonempty : header.bytes ++ payload ≠ [] := by
    intro hnil
    rw [hnil, List.length_nil] at length
    omega
  have long : maxHeaderSize ≤ (header.bytes ++ payload).length := by
    rw [length, maxHeaderSize]
    omega
  have undecided : ∀ k, 0 < k → k ≤ lastCut (header.bytes ++ payload) →
      decision parse (header.bytes ++ payload) k = none := by
    intro k hpos hk
    rw [lastCut, maxHeaderSize] at hk
    exact undecided_in_header exact hpos (by omega)
  have first := lt_nextCut (header.bytes ++ payload) (sizes 0) (k := 0) (by omega) (by decide)
  have bounds := nextCut_le (header.bytes ++ payload) (sizes 0) (Nat.zero_le _) (Nat.zero_le _)
  exact (ends_iff_cuts nonempty).mpr (cutLoop_fails undecided long first bounds.2 _)

/-- When no read goes beyond the header, the inner service is handed exactly the
payload if and only if the header is not one with Unix addresses. -/
theorem payload_handed_iff {sizes : Nat → Nat} (exact : ParsesExactly parse header.bytes)
    (whole : NoReadCrosses (header.bytes ++ payload) header.bytes.length 0 sizes) :
    (∃ remoteAddr, Ends parse ⟨header.bytes ++ payload, sizes⟩ (.inner remoteAddr payload)) ↔
      ¬ header.IsUnix := by
  constructor
  · rintro ⟨remoteAddr, ends⟩ unix
    cases ends_unique ends (unix_header_fails exact unix sizes)
  · intro other
    have fits := header.length_lt_iff.mpr other
    have some_bytes : 0 < header.bytes.length := by
      refine List.length_pos_of_ne_nil ?_
      cases header <;> exact List.cons_ne_nil _ _
    have nonempty : header.bytes ++ payload ≠ [] := by
      intro hnil
      rw [(List.append_eq_nil_iff.mp hnil).1] at some_bytes
      exact Nat.lt_irrefl 0 some_bytes
    have length : (header.bytes ++ payload).length = header.bytes.length + payload.length :=
      List.length_append
    have first := lt_nextCut (header.bytes ++ payload) (sizes 0) (k := 0) (by omega) (by decide)
    have stop : nextCut (header.bytes ++ payload) 0 (sizes 0) ≤ header.bytes.length :=
      whole 0 some_bytes
    obtain ⟨fuel, remoteAddr, hrun⟩ := cutLoop_to_header exact fits first stop whole.next
    exact ⟨remoteAddr, (ends_iff_cuts nonempty).mpr ⟨fuel, hrun⟩⟩

/-- Reads of one byte do not go beyond anything. -/
theorem noReadCrosses_single (s : List UInt8) (stop k : Nat) :
    NoReadCrosses s stop k fun _ => 1 := by
  intro n
  induction n generalizing k with
  | zero =>
      intro before
      simp only [cutAfter, nextCut] at before ⊢
      omega
  | succ n ih => exact ih _

end

/-- The parser that knows one header, and the addresses in it. -/
def parseOnly (header : WireHeader) (addresses : ProxyAddresses String String) :
    Parse String String := fun buffer =>
  if header.bytes <+: buffer then .ok (.version2 addresses, header.bytes.length)
  else .error (.version2 .unexpectedEof)

theorem parseOnly_exactly (header : WireHeader) (addresses : ProxyAddresses String String) :
    ParsesExactly (parseOnly header addresses) header.bytes where
  accepts := ⟨_, if_pos (List.prefix_refl _)⟩
  incomplete := by
    intro n hn
    have short : ¬ header.bytes <+: header.bytes.take n := by
      intro hp
      have := hp.length_le
      rw [List.length_take] at this
      omega
    exact ⟨_, if_neg short, rfl⟩

def ipv4Header : WireHeader := .v2 .proxy .stream (.ipv4 (.replicate 12 0x01))

def parseIpv4 : Parse String String :=
  parseOnly ipv4Header (.ipv4 "1.1.1.1:257" "1.1.1.1:257")

def unixHeader : WireHeader := .v2 .proxy .stream (.unix (.replicate 216 0x2F))

def parseUnix : Parse String String := parseOnly unixHeader .other

/-- A version 2 header with IPv4 addresses, byte by byte. -/
theorem ipv4_header_fits :
    ∃ remoteAddr, Ends parseIpv4 ⟨ipv4Header.bytes ++ [0x61, 0x62], fun _ => 1⟩
      (.inner remoteAddr [0x61, 0x62]) :=
  (payload_handed_iff (parseOnly_exactly ipv4Header _) (noReadCrosses_single _ _ _)).mpr id

/-- A version 2 header with Unix addresses, byte by byte. -/
theorem unix_header_too_long :
    ParsesExactly parseUnix unixHeader.bytes ∧
    NoReadCrosses (unixHeader.bytes ++ [0x61]) unixHeader.bytes.length 0 (fun _ => 1) ∧
    ¬ ∃ remoteAddr, Ends parseUnix ⟨unixHeader.bytes ++ [0x61], fun _ => 1⟩
      (.inner remoteAddr [0x61]) := by
  refine ⟨parseOnly_exactly unixHeader _, noReadCrosses_single _ _ _, ?_⟩
  rintro ⟨remoteAddr, ends⟩
  cases ends_unique ends (unix_header_fails (parseOnly_exactly unixHeader _) trivial _)

end Monolake.ProxyProtocol
