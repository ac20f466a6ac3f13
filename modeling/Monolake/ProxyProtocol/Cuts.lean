import Monolake.ProxyProtocol.Call

/-!
A call seen as a sequence of cuts of one stream. At each cut the bytes before it
either decide what the inner service is called with or leave it open; the loop
asks for a later cut as long as they leave it open, and gives up when a later
read fills the buffer.
-/
namespace Monolake.ProxyProtocol

universe u
variable {A4 A6 : Type u}

/-! Slices and the magic headers. -/

theorem slice_one_iff (x : UInt8) (xs ys : List UInt8) (n : Nat) :
    slice (x :: xs) 1 (n + 1) = slice (x :: ys) 1 (n + 1) ↔
      (x :: xs).take (n + 1) = (x :: ys).take (n + 1) := by
  simp [slice]

theorem slice_take (s : List UInt8) {k m n : Nat} (h : n ≤ m) :
    slice (s.take m) k n = slice s k n := by
  rw [slice, slice, List.take_take, Nat.min_eq_left h]

/-- Agreement up to `n` is agreement up to `k` and from `k` to `n`. -/
theorem take_eq_iff_slice (s t : List UInt8) {k n : Nat} (h : k ≤ n) :
    s.take n = t.take n ↔ s.take k = t.take k ∧ slice s k n = slice t k n := by
  have cut : ∀ l : List UInt8, l.take n = l.take k ++ slice l k n := by
    intro l
    have := List.take_append_drop k (l.take n)
    rw [List.take_take, Nat.min_eq_left h] at this
    exact this.symm
  constructor
  · intro heq
    have hk := congrArg (List.take k) heq
    rw [List.take_take, List.take_take, Nat.min_eq_left h] at hk
    exact ⟨hk, congrArg (List.drop k) heq⟩
  · rintro ⟨hk, hslice⟩
    rw [cut s, cut t, hk, hslice]

/-- The first `k` bytes of the stream agree with the magic as far as both go. -/
def Matches (target s : List UInt8) (k : Nat) : Prop :=
  s.take (min k target.length) = target.take (min k target.length)

/-- The check of the bytes that a read has added decides whether the magic still
matches. -/
theorem matches_later {target s : List UInt8} {k m : Nat} (h : Matches target s k) (hkm : k ≤ m) :
    Matches target s m ↔ ¬ (k < target.length ∧
      slice (s.take m) k (min target.length m) ≠ slice target k (min target.length m)) := by
  by_cases hk : k < target.length
  · have hle : k ≤ min target.length m := by omega
    rw [slice_take s (Nat.min_le_right ..), Matches, Nat.min_comm m,
      take_eq_iff_slice s target hle]
    rw [Matches, Nat.min_eq_left (Nat.le_of_lt hk)] at h
    simp [h, hk]
  · have same : min m target.length = min k target.length := by omega
    rw [Matches, same]
    simp [hk, show s.take (min k target.length) = target.take (min k target.length) from h]

/-- The magic header that the first `k` bytes of the stream may belong to. -/
def glance (s : List UInt8) (k : Nat) : Option (List UInt8) :=
  (s.take k)[0]?.bind fun first => targetHeader first (s.take k)

instance (target s : List UInt8) (k : Nat) : Decidable (Matches target s k) :=
  inferInstanceAs (Decidable (_ = _))

theorem slice_magic_iff {x : UInt8} {target xs : List UInt8} {k : Nat} (h : 0 < k)
    (hk : k ≤ (x :: xs).length) :
    let stop := min ((x :: xs).take k).length (x :: target).length
    slice ((x :: xs).take k) 1 stop = slice (x :: target) 1 stop ↔
      Matches (x :: target) (x :: xs) k := by
  have hlen : ((x :: xs).take k).length = k := List.length_take_of_le hk
  have hpos : min k (x :: target).length ≠ 0 := by
    rw [List.length_cons]
    omega
  obtain ⟨n, hn⟩ := Nat.exists_eq_succ_of_ne_zero hpos
  dsimp only
  rw [hlen, slice_take _ (Nat.min_le_left ..), Matches, hn]
  exact slice_one_iff ..

theorem glance_cons {x : UInt8} {xs : List UInt8} {k : Nat} (h : 0 < k)
    (hk : k ≤ (x :: xs).length) :
    glance (x :: xs) k =
      if x = 0x50 then if Matches v1Header (x :: xs) k then some v1Header else none
      else if x = 0x0D then if Matches v2Header (x :: xs) k then some v2Header else none
      else none := by
  have first : ((x :: xs).take k)[0]? = some x := by
    rw [List.getElem?_take_of_lt h, List.getElem?_cons_zero]
  rw [glance, first, Option.bind_some, targetHeader]
  split
  · rename_i hx
    subst hx
    exact if_congr (slice_magic_iff h hk) rfl rfl
  · split
    · rename_i hx
      subst hx
      exact if_congr (slice_magic_iff h hk) rfl rfl
    · rfl

theorem glance_matches {target s : List UInt8} {k : Nat} (h : 0 < k) (hk : k ≤ s.length)
    (hg : glance s k = some target) {m : Nat} (hm : 0 < m) (hms : m ≤ s.length) :
    glance s m = if Matches target s m then some target else none := by
  cases s with
  | nil => simp at hk; omega
  | cons x xs =>
      rw [glance_cons h hk] at hg
      rw [glance_cons hm hms]
      split at hg
      · rename_i hx
        split at hg
        · obtain rfl := Option.some.inj hg
          rw [if_pos hx]
        · cases hg
      · rename_i hx
        split at hg
        · rename_i hx'
          split at hg
          · obtain rfl := Option.some.inj hg
            rw [if_neg hx, if_pos hx']
          · cases hg
        · cases hg

theorem glance_matched {target s : List UInt8} {k : Nat} (h : 0 < k) (hk : k ≤ s.length)
    (hg : glance s k = some target) : Matches target s k := by
  by_contra hne
  have here := glance_matches h hk hg h hk
  rw [if_neg hne, hg] at here
  cases here

/-- A part of what matches matches. -/
theorem glance_earlier {target s : List UInt8} {k m : Nat} (h : 0 < k) (hkm : k ≤ m)
    (hm : m ≤ s.length) (hg : glance s m = some target) : glance s k = some target := by
  have whole : Matches target s m := glance_matched (by omega) hm hg
  have part : Matches target s k := by
    have := congrArg (List.take (min k target.length)) whole
    rw [List.take_take, List.take_take, Nat.min_eq_left (by omega)] at this
    exact this
  rw [glance_matches (by omega) hm hg h (by omega), if_pos part]

/-- The check after a read decides what a glance at the longer cut would. -/
theorem glance_later {target s : List UInt8} {k m : Nat} (h : 0 < k) (hkm : k ≤ m)
    (hm : m ≤ s.length) (hg : glance s k = some target) :
    glance s m =
      if k < target.length ∧
        slice (s.take m) k (min target.length m) ≠ slice target k (min target.length m)
      then none else some target := by
  have matched := glance_matched h (by omega) hg
  rw [glance_matches h (by omega) hg (by omega) hm, ← ite_not]
  exact if_congr ((matches_later matched hkm).not.trans not_not) rfl rfl

/-! The run over cuts. -/

/-- What the inner service is called with when the first `k` bytes decide. -/
def decision (parse : Parse A4 A6) (s : List UInt8) (k : Nat) :
    Option (Option (RemoteAddr A4 A6) × List UInt8) :=
  match glance s k with
  | none => some (none, s)
  | some _ =>
      match parse (s.take k) with
      | .ok (header, idx) => some (header.remoteAddr, (s.take k).drop idx ++ s.drop k)
      | .error e => if e.dataNotEnough then none else some (none, s)

/-- Where the next read ends, if `size` bytes would be there for it. -/
def nextCut (s : List UInt8) (k size : Nat) : Nat :=
  k + min (max 1 size) (min (maxHeaderSize - k) (s.length - k))

/-- The loop, on the first `k` bytes of the stream. -/
def cutLoop (parse : Parse A4 A6) (s : List UInt8) :
    Nat → Nat → (Nat → Nat) → Option (Outcome A4 A6)
  | 0, _, _ => none
  | fuel + 1, k, sizes =>
      match decision parse s k with
      | some (remoteAddr, stream) => some (.inner remoteAddr stream)
      | none =>
          let m := nextCut s k (sizes 0)
          if glance s m = none then some (.inner none s)
          else if m = maxHeaderSize then some (.failed .notProxyHeader)
          else cutLoop parse s fuel m fun i => sizes (i + 1)

theorem le_nextCut (s : List UInt8) (k size : Nat) : k ≤ nextCut s k size :=
  Nat.le_add_right ..

theorem nextCut_le (s : List UInt8) {k : Nat} (size : Nat) (hk : k ≤ s.length)
    (hmax : k ≤ maxHeaderSize) :
    nextCut s k size ≤ s.length ∧ nextCut s k size ≤ maxHeaderSize := by
  rw [nextCut]
  omega

theorem lt_nextCut (s : List UInt8) {k : Nat} (size : Nat) (hk : k < s.length)
    (hmax : k < maxHeaderSize) : k < nextCut s k size := by
  rw [nextCut]
  omega

/-- Every later cut within bounds is the end of some read. -/
theorem nextCut_eq (s : List UInt8) {k m : Nat} (hkm : k < m) (hm : m ≤ s.length)
    (hmax : m ≤ maxHeaderSize) : nextCut s k (m - k) = m := by
  rw [nextCut]
  omega

/-- A read takes from the front of the stream. -/
theorem read_append (stream : SourceStream) (requested : Nat) :
    (stream.read requested).1 ++ (stream.read requested).2.rest = stream.rest :=
  List.take_append_drop ..

theorem read_length_le (stream : SourceStream) (requested : Nat) :
    (stream.read requested).1.length ≤ requested := by
  rw [SourceStream.read, List.length_take]
  omega

/-- A read brings nothing only at the end, or when nothing is requested. -/
theorem read_nil {stream : SourceStream} {requested : Nat}
    (h : (stream.read requested).1 = []) : requested = 0 ∨ stream.rest = [] := by
  have length := congrArg List.length h
  rw [SourceStream.read, List.length_take, List.length_nil] at length
  rw [← List.length_eq_zero_iff]
  omega

theorem read_cut {s : List UInt8} {k : Nat} (sizes : Nat → Nat) (hk : k ≤ s.length) :
    let r := SourceStream.read ⟨s.drop k, sizes⟩ (maxHeaderSize - k)
    s.take k ++ r.1 = s.take (nextCut s k (sizes 0)) ∧
      r.2 = ⟨s.drop (nextCut s k (sizes 0)), fun i => sizes (i + 1)⟩ ∧
      k + r.1.length = nextCut s k (sizes 0) := by
  simp only [SourceStream.read, List.length_drop, List.drop_drop, List.length_take]
  refine ⟨?_, rfl, ?_⟩
  · rw [nextCut, List.take_add]
  · rw [nextCut]
    omega

/-- The loop on a buffer and a stream is the loop on the cut between them. -/
theorem headerLoop_cut {parse : Parse A4 A6} {s target : List UInt8} (fuel : Nat) {k : Nat}
    {sizes : Nat → Nat} (h : 0 < k) (hk : k ≤ s.length) (hmax : k ≤ maxHeaderSize)
    (hg : glance s k = some target) :
    (headerLoop parse target fuel (s.take k) ⟨s.drop k, sizes⟩).map afterLoop =
      cutLoop parse s fuel k sizes := by
  induction fuel generalizing k sizes with
  | zero => rfl
  | succ fuel ih =>
      have whole : s.take k ++ s.drop k = s := List.take_append_drop k s
      simp only [headerLoop, cutLoop, decision, hg]
      cases hp : parse (s.take k) with
      | ok parsed => simp [afterLoop, callInner]
      | error e =>
          cases he : e.dataNotEnough with
          | false => simp [he, afterLoop, callInner, whole]
          | true =>
              have length_take : (s.take k).length = k := List.length_take_of_le hk
              obtain ⟨hbuffer, hstream, hlen⟩ := read_cut sizes hk
              have hle := nextCut_le s (sizes 0) hk hmax
              have later := glance_later h (le_nextCut s k (sizes 0)) hle.1 hg
              have split : s.take (nextCut s k (sizes 0)) ++ s.drop (nextCut s k (sizes 0)) = s :=
                List.take_append_drop ..
              simp only [he, length_take, hbuffer, hstream, hlen, if_true]
              split at later
              · rename_i hmismatch
                simp [if_pos hmismatch, later, afterLoop, callInner, split]
              · rename_i hmatch
                have matched : glance s (nextCut s k (sizes 0)) ≠ none := by simp [later]
                simp only [if_neg hmatch, if_neg matched]
                split
                · rfl
                · refine ih (by have := le_nextCut s k (sizes 0); omega) hle.1 hle.2 later

/-- A call ends as its run over cuts does, from the end of the first read on. -/
theorem ends_iff_cuts {parse : Parse A4 A6} {s : List UInt8} (hs : s ≠ []) {sizes : Nat → Nat}
    {outcome : Outcome A4 A6} :
    Ends parse ⟨s, sizes⟩ outcome ↔
      ∃ fuel, cutLoop parse s fuel (nextCut s 0 (sizes 0)) (fun i => sizes (i + 1)) =
        some outcome := by
  have hlen : 0 < s.length := List.length_pos_of_ne_nil hs
  obtain ⟨hbuffer, hstream, -⟩ := read_cut sizes (Nat.zero_le s.length)
  have hpos := lt_nextCut s (sizes 0) hlen (by decide)
  have hle := nextCut_le s (sizes 0) (Nat.zero_le _) (Nat.zero_le _)
  simp only [List.take_zero, List.drop_zero, List.nil_append, Nat.sub_zero] at hbuffer hstream
  generalize nextCut s 0 (sizes 0) = k at *
  have run : ∀ fuel, call parse fuel ⟨s, sizes⟩ =
      match glance s k with
      | none => some (.inner none s)
      | some _ => cutLoop parse s fuel k fun i => sizes (i + 1) := by
    intro fuel
    have hne : (s.take k)[0]? ≠ none := by
      rw [ne_eq, List.getElem?_eq_none_iff, List.length_take]
      omega
    obtain ⟨first, hfirst⟩ := Option.ne_none_iff_exists'.mp hne
    have look : glance s k = targetHeader first (s.take k) := by
      rw [glance, hfirst, Option.bind_some]
    simp only [call, hbuffer, hstream, hfirst, look]
    cases ht : targetHeader first (s.take k) with
    | none => simp only [callInner, List.take_append_drop]
    | some target => exact headerLoop_cut fuel hpos hle.1 hle.2 (look.trans ht)
  constructor
  · rintro ⟨fuel, h⟩
    rw [run] at h
    cases hg : glance s k with
    | none =>
        rw [hg] at h
        exact ⟨1, by simpa [cutLoop, decision, hg] using h⟩
    | some target =>
        rw [hg] at h
        exact ⟨fuel, h⟩
  · rintro ⟨fuel, h⟩
    refine ⟨fuel, ?_⟩
    rw [run]
    cases hg : glance s k with
    | some target => exact h
    | none =>
        cases fuel with
        | zero => cases h
        | succ fuel => simpa [cutLoop, decision, hg] using h

theorem cutLoop_more {parse : Parse A4 A6} {s : List UInt8} {fuel : Nat} {k : Nat}
    {sizes : Nat → Nat} {outcome : Outcome A4 A6}
    (h : cutLoop parse s fuel k sizes = some outcome) (extra : Nat) :
    cutLoop parse s (fuel + extra) k sizes = some outcome := by
  induction fuel generalizing k sizes with
  | zero => cases h
  | succ fuel ih =>
      rw [Nat.succ_add]
      simp only [cutLoop] at h ⊢
      split
      · rename_i hd
        rw [hd] at h
        exact h
      · rename_i hd
        rw [hd] at h
        dsimp only at h
        split_ifs at h ⊢
        · exact h
        · exact h
        · exact ih h

theorem call_empty (parse : Parse A4 A6) (fuel : Nat) (sizes : Nat → Nat) :
    call parse fuel ⟨[], sizes⟩ = some .panicked := by
  simp [call, SourceStream.read]

theorem ends_unique {parse : Parse A4 A6} {stream : SourceStream} {o o' : Outcome A4 A6}
    (h : Ends parse stream o) (h' : Ends parse stream o') : o = o' := by
  obtain ⟨s, sizes⟩ := stream
  by_cases hs : s = []
  · subst hs
    obtain ⟨fuel, h⟩ := h
    obtain ⟨fuel', h'⟩ := h'
    rw [call_empty] at h h'
    exact Option.some.inj (h.symm.trans h')
  · obtain ⟨fuel, h⟩ := (ends_iff_cuts hs).mp h
    obtain ⟨fuel', h'⟩ := (ends_iff_cuts hs).mp h'
    have more := cutLoop_more h fuel'
    rw [Nat.add_comm, cutLoop_more h' fuel] at more
    exact (Option.some.inj more).symm

end Monolake.ProxyProtocol
