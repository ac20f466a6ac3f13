import Monolake.ProxyProtocol.Cuts

/-!
When the outcome of a call depends on how the bytes arrive. Every cut that
decides must decide alike, and a stream long enough to fill the buffer must not
be left open by a first part and decided by the full buffer: a later read that
fills the buffer ends the call before the header is parsed again.
-/
namespace Monolake.ProxyProtocol

universe u
variable {A4 A6 : Type u} {parse : Parse A4 A6} {s : List UInt8}

/-- Any two ways of reading the stream end in the same outcome. -/
def ArrivalIndependent (parse : Parse A4 A6) (s : List UInt8) : Prop :=
  ∀ sizes sizes' outcome,
    Ends parse ⟨s, sizes⟩ outcome ↔ Ends parse ⟨s, sizes'⟩ outcome

/-- The most a call looks at. -/
def lastCut (s : List UInt8) : Nat := min maxHeaderSize s.length

/-- Whatever a cut decides, the whole of what may be read decides. -/
def CutsAgree (parse : Parse A4 A6) (s : List UInt8) : Prop :=
  ∀ k, 0 < k → k ≤ lastCut s →
    decision parse s k = none ∨ decision parse s k = decision parse s (lastCut s)

/-- A full buffer that starts with the magic and decides is decided by each of
its parts. -/
def NeverFilledLate (parse : Parse A4 A6) (s : List UInt8) : Prop :=
  maxHeaderSize ≤ s.length → glance s maxHeaderSize ≠ none →
    decision parse s maxHeaderSize ≠ none →
      ∀ k, 0 < k → k ≤ maxHeaderSize → decision parse s k ≠ none

theorem cutLoop_decided {k : Nat} {d : Option (RemoteAddr A4 A6) × List UInt8}
    (hd : decision parse s k = some d) (fuel : Nat) (sizes : Nat → Nat) :
    cutLoop parse s (fuel + 1) k sizes = some (.inner d.1 d.2) := by
  simp only [cutLoop, hd]

theorem glance_of_undecided {k : Nat} (hd : decision parse s k = none) : glance s k ≠ none := by
  intro hg
  simp [decision, hg] at hd

theorem decision_of_mismatch {k : Nat} (hg : glance s k = none) :
    decision parse s k = some (none, s) := by
  simp only [decision, hg]

/-- When the whole decides, every run from an earlier cut reaches that decision. -/
theorem cutLoop_reaches {d : Option (RemoteAddr A4 A6) × List UInt8}
    (agree : CutsAgree parse s) (early : NeverFilledLate parse s)
    (hd : decision parse s (lastCut s) = some d) {k : Nat} (h : 0 < k) (hk : k ≤ lastCut s)
    (sizes : Nat → Nat) : ∃ fuel, cutLoop parse s fuel k sizes = some (.inner d.1 d.2) := by
  induction hn : lastCut s - k using Nat.strongRecOn generalizing k sizes with
  | ind n ih =>
      cases hk' : decision parse s k with
      | some d' =>
          have same := (agree k h hk).resolve_left (by simp [hk'])
          rw [hd] at same
          exact ⟨1, cutLoop_decided same 0 sizes⟩
      | none =>
          have hlt : k < lastCut s := by
            refine Nat.lt_of_le_of_ne hk fun heq => ?_
            rw [heq, hd] at hk'
            cases hk'
          have bounds : k < maxHeaderSize ∧ k < s.length := by
            rw [lastCut] at hlt
            omega
          have hm := lt_nextCut s (sizes 0) bounds.2 bounds.1
          have hle := nextCut_le s (sizes 0) (Nat.le_of_lt bounds.2) (Nat.le_of_lt bounds.1)
          have hlast : nextCut s k (sizes 0) ≤ lastCut s := Nat.le_min.mpr ⟨hle.2, hle.1⟩
          by_cases hg : glance s (nextCut s k (sizes 0)) = none
          · have mismatch : decision parse s (nextCut s k (sizes 0)) = some (none, s) :=
              decision_of_mismatch hg
            have same := (agree _ (Nat.lt_trans h hm) hlast).resolve_left (by simp [mismatch])
            rw [hd, mismatch] at same
            obtain rfl := Option.some.inj same
            exact ⟨1, by simp [cutLoop, hk', hg]⟩
          · have hfull : nextCut s k (sizes 0) ≠ maxHeaderSize := by
              intro hfull
              rw [hfull] at hg hle
              have whole : lastCut s = maxHeaderSize := Nat.min_eq_left hle.1
              rw [whole] at hd
              exact early hle.1 hg (by simp [hd]) k h (Nat.le_of_lt bounds.1) hk'
            obtain ⟨fuel, hrun⟩ :=
              ih _ (by omega) (Nat.lt_trans h hm) hlast (fun i => sizes (i + 1)) rfl
            exact ⟨fuel + 1, by simp [cutLoop, hk', hg, hfull, hrun]⟩

/-- When nothing decides and the stream is short, the loop reads for ever. -/
theorem cutLoop_open (undecided : ∀ k, 0 < k → k ≤ lastCut s → decision parse s k = none)
    (short : s.length < maxHeaderSize) (fuel : Nat) {k : Nat} (h : 0 < k) (hk : k ≤ s.length)
    (sizes : Nat → Nat) : cutLoop parse s fuel k sizes = none := by
  have hlast : lastCut s = s.length := Nat.min_eq_right (Nat.le_of_lt short)
  induction fuel generalizing k sizes with
  | zero => rfl
  | succ fuel ih =>
      have hm := le_nextCut s k (sizes 0)
      have hle := nextCut_le s (sizes 0) hk (by omega)
      have hg := glance_of_undecided (undecided _ (by omega) (hlast ▸ hle.1))
      have hfull : nextCut s k (sizes 0) ≠ maxHeaderSize := by omega
      simp only [cutLoop, undecided k h (hlast ▸ hk), if_neg hg, if_neg hfull]
      exact ih (by omega) hle.1 _

/-- When nothing decides and the stream fills the buffer, the call fails. -/
theorem cutLoop_fails (undecided : ∀ k, 0 < k → k ≤ lastCut s → decision parse s k = none)
    (long : maxHeaderSize ≤ s.length) {k : Nat} (h : 0 < k) (hk : k ≤ maxHeaderSize)
    (sizes : Nat → Nat) :
    ∃ fuel, cutLoop parse s fuel k sizes = some (.failed .notProxyHeader) := by
  have hlast : lastCut s = maxHeaderSize := Nat.min_eq_left long
  induction hn : maxHeaderSize - k using Nat.strongRecOn generalizing k sizes with
  | ind n ih =>
      have hm := le_nextCut s k (sizes 0)
      have hle := nextCut_le s (sizes 0) (Nat.le_trans hk long) hk
      have hg := glance_of_undecided (undecided _ (by omega) (hlast ▸ hle.2))
      have hd := undecided k h (hlast ▸ hk)
      by_cases hfull : nextCut s k (sizes 0) = maxHeaderSize
      · exact ⟨1, by simp only [cutLoop, hd, if_neg hg, if_pos hfull]⟩
      · have hlt := lt_nextCut s (sizes 0) (k := k) (by omega) (by omega)
        obtain ⟨fuel, hrun⟩ := ih _ (by omega) (by omega) hle.2 (fun i => sizes (i + 1)) rfl
        exact ⟨fuel + 1, by simp only [cutLoop, hd, if_neg hg, if_neg hfull, hrun]⟩

/-- A later read that fills the buffer ends the call. -/
theorem cutLoop_filled {k : Nat} (hk : k < maxHeaderSize) (long : maxHeaderSize ≤ s.length)
    (hd : decision parse s k = none) (hg : glance s maxHeaderSize ≠ none) {sizes : Nat → Nat}
    (hsize : sizes 0 = maxHeaderSize - k) :
    cutLoop parse s 1 k sizes = some (.failed .notProxyHeader) := by
  have cut : nextCut s k (sizes 0) = maxHeaderSize := by
    rw [hsize]
    exact nextCut_eq s hk long (Nat.le_refl _)
  simp only [cutLoop, hd, cut, if_neg hg, if_true]

/-! From cuts back to calls. -/

/-- Sizes whose first read ends at `k` and whose second would bring `next`. -/
def firstCut (k next : Nat) : Nat → Nat
  | 0 => k
  | _ => next

theorem ends_from_cut (hs : s ≠ []) {k next : Nat} {outcome : Outcome A4 A6} (h : 0 < k)
    (hk : k ≤ lastCut s) :
    Ends parse ⟨s, firstCut k next⟩ outcome ↔
      ∃ fuel, cutLoop parse s fuel k (fun _ => next) = some outcome := by
  have hle := Nat.le_min.mp hk
  have cut : nextCut s 0 (firstCut k next 0) = k := nextCut_eq s h hle.2 hle.1
  rw [ends_iff_cuts hs, cut]
  rfl

theorem ends_decided (hs : s ≠ []) {k : Nat} {d : Option (RemoteAddr A4 A6) × List UInt8}
    (h : 0 < k) (hk : k ≤ lastCut s) (hd : decision parse s k = some d) (next : Nat) :
    Ends parse ⟨s, firstCut k next⟩ (.inner d.1 d.2) :=
  (ends_from_cut hs h hk).mpr ⟨1, cutLoop_decided hd 0 _⟩

/-- A call has one outcome however the bytes arrive, or never ends. -/
theorem independent_of_common {outcome : Outcome A4 A6}
    (h : ∀ sizes, Ends parse ⟨s, sizes⟩ outcome) : ArrivalIndependent parse s := by
  have only : ∀ sizes o, Ends parse ⟨s, sizes⟩ o ↔ o = outcome := by
    intro sizes o
    exact ⟨fun ho => ends_unique ho (h sizes), fun heq => heq ▸ h sizes⟩
  exact fun sizes sizes' o => (only sizes o).trans (only sizes' o).symm

theorem independent_of_agree (agree : CutsAgree parse s) (early : NeverFilledLate parse s) :
    ArrivalIndependent parse s := by
  by_cases hs : s = []
  · subst hs
    exact independent_of_common fun sizes => ⟨0, call_empty parse 0 sizes⟩
  · have hlen : 0 < s.length := List.length_pos_of_ne_nil hs
    have first : ∀ size, 0 < nextCut s 0 size ∧ nextCut s 0 size ≤ s.length ∧
        nextCut s 0 size ≤ maxHeaderSize := fun size =>
      ⟨lt_nextCut s size hlen (by decide), nextCut_le s size (Nat.zero_le _) (Nat.zero_le _)⟩
    cases hd : decision parse s (lastCut s) with
    | some d =>
        have common : ∀ sizes, Ends parse ⟨s, sizes⟩ (.inner d.1 d.2) := by
          intro sizes
          obtain ⟨hpos, hle, hmax⟩ := first (sizes 0)
          exact (ends_iff_cuts hs).mpr
            (cutLoop_reaches agree early hd hpos (Nat.le_min.mpr ⟨hmax, hle⟩) _)
        exact independent_of_common common
    | none =>
        have undecided : ∀ k, 0 < k → k ≤ lastCut s → decision parse s k = none :=
          fun k h hk => (agree k h hk).elim id (·.trans hd)
        by_cases long : maxHeaderSize ≤ s.length
        · have common : ∀ sizes, Ends parse ⟨s, sizes⟩ (.failed .notProxyHeader) := by
            intro sizes
            obtain ⟨hpos, -, hmax⟩ := first (sizes 0)
            exact (ends_iff_cuts hs).mpr (cutLoop_fails undecided long hpos hmax _)
          exact independent_of_common common
        · have never : ∀ sizes o, ¬ Ends parse ⟨s, sizes⟩ o := by
            intro sizes o ends
            obtain ⟨fuel, hrun⟩ := (ends_iff_cuts hs).mp ends
            obtain ⟨hpos, hle, -⟩ := first (sizes 0)
            rw [cutLoop_open undecided (by omega) fuel hpos hle] at hrun
            cases hrun
          exact fun sizes sizes' o => iff_of_false (never sizes o) (never sizes' o)

theorem agree_of_independent (h : ArrivalIndependent parse s) : CutsAgree parse s := by
  intro k hpos hk
  have hs : s ≠ [] := by
    rintro rfl
    simp [lastCut] at hk
    omega
  cases hd : decision parse s k with
  | none => exact .inl rfl
  | some d =>
      right
      have there := (h _ (firstCut (lastCut s) 0) _).mp (ends_decided hs hpos hk hd 0)
      have hlast : 0 < lastCut s := Nat.lt_of_lt_of_le hpos hk
      cases hl : decision parse s (lastCut s) with
      | some d' =>
          have same := ends_unique there (ends_decided hs hlast (Nat.le_refl _) hl 0)
          injection same with haddr hstream
          rw [Prod.ext haddr hstream]
      | none =>
          -- the first read brings everything, so the next cut is the same one
          obtain ⟨fuel, hrun⟩ := (ends_from_cut hs hlast (Nat.le_refl _)).mp there
          have stay : nextCut s (lastCut s) 0 = lastCut s := by
            rw [nextCut, lastCut]
            omega
          have hg := glance_of_undecided hl
          induction fuel with
          | zero => cases hrun
          | succ fuel ih =>
              simp only [cutLoop, hl, stay, if_neg hg] at hrun
              split at hrun
              · cases hrun
              · exact ih hrun

theorem early_of_independent (h : ArrivalIndependent parse s) : NeverFilledLate parse s := by
  intro long hg hfull k hpos hk hd
  have hlast : lastCut s = maxHeaderSize := Nat.min_eq_left long
  have hs : s ≠ [] := by
    rintro rfl
    simp [maxHeaderSize] at long
  obtain ⟨d, hd'⟩ := Option.ne_none_iff_exists'.mp hfull
  have hlt : k < maxHeaderSize := Nat.lt_of_le_of_ne hk fun heq => hfull (heq ▸ hd)
  have filled : Ends parse ⟨s, firstCut k (maxHeaderSize - k)⟩ (.failed .notProxyHeader) :=
    (ends_from_cut hs hpos (hlast ▸ hk)).mpr ⟨1, cutLoop_filled hlt long hd hg rfl⟩
  have decided := ends_decided hs (Nat.lt_of_lt_of_le hpos hk) (Nat.le_of_eq hlast.symm) hd' 0
  cases ends_unique ((h _ _ _).mp decided) filled

/-- How the bytes arrive makes no difference exactly when all cuts that decide
agree with the whole and the buffer is never filled by a later read that would
have decided. -/
theorem arrival_independent_iff (parse : Parse A4 A6) (s : List UInt8) :
    ArrivalIndependent parse s ↔ CutsAgree parse s ∧ NeverFilledLate parse s :=
  ⟨fun h => ⟨agree_of_independent h, early_of_independent h⟩,
    fun h => independent_of_agree h.1 h.2⟩

/-! The streams that are treated unlike. -/

/-- What the next result assumes of the parser: a success is final, and before the
last byte of the header it asks for more. -/
structure PrefixParser (parse : Parse A4 A6) : Prop where
  stable : ∀ buffer header, parse buffer = .ok header → ∀ more, parse (buffer ++ more) = .ok header
  incomplete : ∀ buffer header idx, parse buffer = .ok (header, idx) →
    ∀ n < idx, ∃ e, parse (buffer.take n) = .error e ∧ e.dataNotEnough = true

/-- Every stream that fills the buffer and starts with a complete header depends
on how it arrives: with any part of the header first and the rest of the buffer
next, the call fails. -/
theorem long_header_dependent (hp : PrefixParser parse) (long : maxHeaderSize ≤ s.length)
    (hg : glance s maxHeaderSize ≠ none) {header : ProxyHeader A4 A6} {idx : Nat}
    (hparse : parse (s.take maxHeaderSize) = .ok (header, idx)) (hidx : 1 < idx) :
    ¬ ArrivalIndependent parse s := by
  intro h
  obtain ⟨e, he, hmore⟩ := hp.incomplete _ _ _ hparse 1 hidx
  rw [List.take_take, Nat.min_eq_left (by decide)] at he
  obtain ⟨target, ht⟩ := Option.ne_none_iff_exists'.mp hg
  have start := glance_earlier Nat.one_pos (by decide) long ht
  refine early_of_independent h long hg ?_ 1 (by decide) (by decide) ?_
  · simp [decision, ht, hparse]
  · simp [decision, start, he, hmore]

/-- The line `PROXY TCP4 1.2.3.4 5.6.7.8 9 9` with its line end. -/
def v1Line : List UInt8 :=
  v1Header ++ [0x54, 0x43, 0x50, 0x34, 0x20, 0x31, 0x2E, 0x32, 0x2E, 0x33, 0x2E, 0x34, 0x20, 0x35,
    0x2E, 0x36, 0x2E, 0x37, 0x2E, 0x38, 0x20, 0x39, 0x20, 0x39, 0x0D, 0x0A]

/-- The parser on streams that begin with that line. -/
def parseV1Line : Parse String String := fun buffer =>
  if v1Line <+: buffer then .ok (.version1 (.ipv4 "1.2.3.4:9" "5.6.7.8:9"), v1Line.length)
  else if buffer.length < v1Header.length then .error .notProxyHeader
  else .error (.version1 .unexpectedEof)

theorem parseV1Line_prefixParser : PrefixParser parseV1Line where
  stable := by
    intro buffer header h more
    by_cases hp : v1Line <+: buffer
    · have longer := hp.trans (List.prefix_append buffer more)
      rw [parseV1Line, if_pos hp] at h
      rw [parseV1Line, if_pos longer, h]
    · rw [parseV1Line, if_neg hp] at h
      split at h <;> cases h
  incomplete := by
    intro buffer header idx h n hn
    have hidx : idx ≤ v1Line.length := by
      rw [parseV1Line] at h
      split at h
      · cases h
        exact Nat.le_refl _
      · split at h <;> cases h
    have short : ¬ v1Line <+: buffer.take n := by
      intro hp
      have := hp.length_le
      rw [List.length_take] at this
      omega
    rw [parseV1Line, if_neg short]
    split
    · exact ⟨_, rfl, rfl⟩
    · exact ⟨_, rfl, rfl⟩

set_option maxRecDepth 8000 in
/-- The line followed by as much payload: read at once it is accepted, and when
the first read brings ten bytes and the second fills the buffer the call fails. -/
theorem split_v1_line_fails :
    let stream := v1Line ++ List.replicate 230 0x61
    PrefixParser parseV1Line ∧
    Ends parseV1Line ⟨stream, firstCut 230 0⟩
      (.inner (some (.ipv4 "1.2.3.4:9")) (List.replicate 230 0x61)) ∧
    Ends parseV1Line ⟨stream, firstCut 10 220⟩ (.failed .notProxyHeader) ∧
    ¬ ArrivalIndependent parseV1Line stream := by
  intro stream
  have accepted : Ends parseV1Line ⟨stream, firstCut 230 0⟩
      (.inner (some (.ipv4 "1.2.3.4:9")) (List.replicate 230 0x61)) := ⟨1, by rfl⟩
  have failed : Ends parseV1Line ⟨stream, firstCut 10 220⟩ (.failed .notProxyHeader) :=
    ⟨1, by rfl⟩
  refine ⟨parseV1Line_prefixParser, accepted, failed, fun h => ?_⟩
  cases ends_unique ((h _ _ _).mp accepted) failed

end Monolake.ProxyProtocol
