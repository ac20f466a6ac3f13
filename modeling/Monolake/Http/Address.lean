import Mathlib.Data.List.Basic

/-!
Addresses of accepted connections, and the text in which an IP address is shown:
four decimal numbers, or hexadecimal segments with the longest run of zeroes left
out.
-/
namespace Monolake.Http

inductive IpAddr where
  | v4 (octets : Vector UInt8 4)
  | v6 (segments : Vector UInt16 8)
  deriving DecidableEq

namespace IpAddr

def fmtV4 (octets : Vector UInt8 4) : List Char :=
  Nat.toDigits 10 octets[0].toNat ++ '.' :: (Nat.toDigits 10 octets[1].toNat ++
    '.' :: (Nat.toDigits 10 octets[2].toNat ++ '.' :: Nat.toDigits 10 octets[3].toNat))

structure Span where
  start : Nat
  len : Nat

/-- The longest run of zero segments, the first one among equals: `longest` and
`current` of the loop before segment `i`. -/
def longestZeroes (longest current : Span) (i : Nat) : List UInt16 → Span
  | [] => longest
  | segment :: segments =>
      if segment = 0 then
        let start := if current.len = 0 then i else current.start
        let current := { start, len := current.len + 1 }
        let longest := if current.len > longest.len then current else longest
        longestZeroes longest current (i + 1) segments
      else longestZeroes longest ⟨0, 0⟩ (i + 1) segments

def fmtSubslice : List UInt16 → List Char
  | [] => []
  | first :: tail =>
      Nat.toDigits 16 first.toNat ++ tail.flatMap fun segment =>
        ':' :: Nat.toDigits 16 segment.toNat

/-- The address of the form `::ffff:a.b.c.d`. -/
def toIpv4Mapped (segments : Vector UInt16 8) : Option (Vector UInt8 4) :=
  match segments.toList with
  | [0, 0, 0, 0, 0, 0xffff, ab, cd] =>
      some #v[(ab >>> 8).toUInt8, ab.toUInt8, (cd >>> 8).toUInt8, cd.toUInt8]
  | _ => none

def fmtV6 (segments : Vector UInt16 8) : List Char :=
  match toIpv4Mapped segments with
  | some ipv4 => "::ffff:".toList ++ fmtV4 ipv4
  | none =>
      let zeroes := longestZeroes ⟨0, 0⟩ ⟨0, 0⟩ 0 segments.toList
      if zeroes.len > 1 then
        fmtSubslice (segments.toList.take zeroes.start) ++ "::".toList ++
          fmtSubslice (segments.toList.drop (zeroes.start + zeroes.len))
      else fmtSubslice segments.toList

/-- `ip.to_string()` -/
def text : IpAddr → String
  | v4 octets => .ofList (fmtV4 octets)
  | v6 segments => .ofList (fmtV6 segments)

end IpAddr

inductive UnixSocketAddr where
  | unnamed
  | pathname (path : ByteArray)
  | abstractName (name : ByteArray)

def UnixSocketAddr.asPathname : UnixSocketAddr → Option ByteArray
  | .pathname path => some path
  | .unnamed | .abstractName _ => none

inductive AcceptedAddr where
  | tcp (ip : IpAddr) (port : UInt16)
  | unix (addr : UnixSocketAddr)

/-! The text of an IP address is plain. -/

/-- A visible ASCII character or a space. -/
def Visible (c : Char) : Prop := 0x20 ≤ c.toNat ∧ c.toNat < 0x7F

instance (c : Char) : Decidable (Visible c) := inferInstanceAs (Decidable (_ ∧ _))

namespace IpAddr

theorem visible_toDigits (base : Nat) (hb : 1 < base) (hb' : base ≤ 16) (n : Nat) :
    ∀ c ∈ Nat.toDigits base n, Visible c := by
  have digit : ∀ d < 16, Visible (Nat.digitChar d) := by decide
  induction n using Nat.strongRecOn with
  | ind n ih =>
      intro c hc
      by_cases hn : n < base
      · rw [Nat.toDigits_of_lt_base hn] at hc
        rw [List.mem_singleton.mp hc]
        exact digit n (by omega)
      · rw [Nat.toDigits_of_base_le hb (by omega)] at hc
        rcases List.mem_append.mp hc with hc | hc
        · exact ih _ (Nat.div_lt_self (by omega) hb) c hc
        · have small := Nat.mod_lt n (show 0 < base by omega)
          rw [List.mem_singleton.mp hc]
          exact digit _ (by omega)

theorem visible_append {l l' : List Char} (h : ∀ c ∈ l, Visible c) (h' : ∀ c ∈ l', Visible c) :
    ∀ c ∈ l ++ l', Visible c :=
  fun c hc => (List.mem_append.mp hc).elim (h c) (h' c)

theorem visible_cons {d : Char} {l : List Char} (hd : Visible d) (h : ∀ c ∈ l, Visible c) :
    ∀ c ∈ d :: l, Visible c :=
  List.forall_mem_cons.mpr ⟨hd, h⟩

theorem visible_fmtV4 (octets : Vector UInt8 4) : ∀ c ∈ fmtV4 octets, Visible c := by
  have decimal := visible_toDigits 10 (by decide) (by decide)
  have dot : Visible '.' := by decide
  exact visible_append (decimal _) <| visible_cons dot <| visible_append (decimal _) <|
    visible_cons dot <| visible_append (decimal _) <| visible_cons dot (decimal _)

theorem visible_fmtSubslice (chunk : List UInt16) : ∀ c ∈ fmtSubslice chunk, Visible c := by
  have hexadecimal := visible_toDigits 16 (by decide) (by decide)
  cases chunk with
  | nil => simp [fmtSubslice]
  | cons first tail =>
      refine visible_append (hexadecimal _) fun c hc => ?_
      obtain ⟨segment, -, hc⟩ := List.mem_flatMap.mp hc
      exact visible_cons (by decide) (hexadecimal _) c hc

theorem visible_text (ip : IpAddr) : ∀ c ∈ ip.text.toList, Visible c := by
  cases ip with
  | v4 octets =>
      rw [text, String.toList_ofList]
      exact visible_fmtV4 octets
  | v6 segments =>
      rw [text, String.toList_ofList, fmtV6]
      have mapped : ∀ c ∈ "::ffff:".toList, Visible c := by simp [Visible]
      have colons : ∀ c ∈ "::".toList, Visible c := by simp [Visible]
      split
      · exact visible_append mapped (visible_fmtV4 _)
      · dsimp only
        split
        · exact visible_append (visible_append (visible_fmtSubslice _) colons)
            (visible_fmtSubslice _)
        · exact visible_fmtSubslice _

end IpAddr

example : (IpAddr.v6 #v[0x2001, 0xdb8, 0, 0, 1, 0, 0, 1]).text = "2001:db8::1:0:0:1" := by decide

end Monolake.Http
