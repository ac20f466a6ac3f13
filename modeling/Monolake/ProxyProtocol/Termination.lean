import Monolake.ProxyProtocol.Arrival

/-!
When the reading of the header ends. Behind the last byte a read brings nothing
and the loop parses what it parsed before, so a stream that closes before the
buffer is full must be decided at one of the cuts where a read ended.
-/
namespace Monolake.ProxyProtocol

universe u
variable {A4 A6 : Type u} {parse : Parse A4 A6} {s : List UInt8}

/-- After finitely many reads the inner service is called or an error returned. -/
def Finishes (parse : Parse A4 A6) (stream : SourceStream) : Prop :=
  ∃ outcome, Ends parse stream outcome ∧ outcome ≠ .panicked

/-- Where the reads after a cut end. -/
def cutAfter (s : List UInt8) (k : Nat) (sizes : Nat → Nat) : Nat → Nat
  | 0 => k
  | n + 1 => cutAfter s (nextCut s k (sizes 0)) (fun i => sizes (i + 1)) n

/-- The end of the read number `n`. -/
def readCut (s : List UInt8) (sizes : Nat → Nat) (n : Nat) : Nat := cutAfter s 0 sizes (n + 1)

theorem cutLoop_not_panicked {fuel k : Nat} {sizes : Nat → Nat} {outcome : Outcome A4 A6}
    (h : cutLoop parse s fuel k sizes = some outcome) : outcome ≠ .panicked := by
  induction fuel generalizing k sizes with
  | zero => cases h
  | succ fuel ih =>
      simp only [cutLoop] at h
      split at h
      · obtain rfl := Option.some.inj h
        simp
      · split_ifs at h
        · obtain rfl := Option.some.inj h
          simp
        · obtain rfl := Option.some.inj h
          simp
        · exact ih h

/-- Reading a stream that is not empty ends when its run over cuts does. -/
theorem finishes_iff_cuts (hs : s ≠ []) (sizes : Nat → Nat) :
    Finishes parse ⟨s, sizes⟩ ↔
      ∃ fuel outcome, cutLoop parse s fuel (nextCut s 0 (sizes 0)) (fun i => sizes (i + 1)) =
        some outcome := by
  constructor
  · rintro ⟨outcome, ends, -⟩
    obtain ⟨fuel, h⟩ := (ends_iff_cuts hs).mp ends
    exact ⟨fuel, outcome, h⟩
  · rintro ⟨fuel, outcome, h⟩
    exact ⟨outcome, (ends_iff_cuts hs).mpr ⟨fuel, h⟩, cutLoop_not_panicked h⟩

/-- A round from an undecided cut ends the loop or goes on from the next cut. -/
theorem cutLoop_round {k : Nat} (hd : decision parse s k = none) (sizes : Nat → Nat)
    (rest : glance s (nextCut s k (sizes 0)) ≠ none → nextCut s k (sizes 0) ≠ maxHeaderSize →
      ∃ fuel outcome, cutLoop parse s fuel (nextCut s k (sizes 0)) (fun i => sizes (i + 1)) =
        some outcome) :
    ∃ fuel outcome, cutLoop parse s fuel k sizes = some outcome := by
  by_cases hg : glance s (nextCut s k (sizes 0)) = none
  · exact ⟨1, .inner none s, by simp only [cutLoop, hd, if_pos hg]⟩
  · by_cases hfull : nextCut s k (sizes 0) = maxHeaderSize
    · exact ⟨1, .failed .notProxyHeader, by simp only [cutLoop, hd, if_neg hg, if_pos hfull]⟩
    · obtain ⟨fuel, outcome, h⟩ := rest hg hfull
      exact ⟨fuel + 1, outcome, by simp only [cutLoop, hd, if_neg hg, if_neg hfull, h]⟩

/-- The loop does not go past a cut that decides. -/
theorem cutLoop_of_decided {n k : Nat} {sizes : Nat → Nat}
    (h : decision parse s (cutAfter s k sizes n) ≠ none) :
    ∃ fuel outcome, cutLoop parse s fuel k sizes = some outcome := by
  induction n generalizing k sizes with
  | zero =>
      obtain ⟨d, hd⟩ := Option.ne_none_iff_exists'.mp h
      exact ⟨1, _, cutLoop_decided hd 0 sizes⟩
  | succ n ih =>
      cases hd : decision parse s k with
      | some d => exact ⟨1, _, cutLoop_decided hd 0 sizes⟩
      | none => exact cutLoop_round hd sizes fun _ _ => ih h

/-- A stream that can fill the buffer moves the cut in every round. -/
theorem cutLoop_of_long (long : maxHeaderSize ≤ s.length) {k : Nat} (hk : k ≤ maxHeaderSize)
    (sizes : Nat → Nat) : ∃ fuel outcome, cutLoop parse s fuel k sizes = some outcome := by
  induction hn : maxHeaderSize - k using Nat.strongRecOn generalizing k sizes with
  | ind n ih =>
      cases hd : decision parse s k with
      | some d => exact ⟨1, _, cutLoop_decided hd 0 sizes⟩
      | none =>
          refine cutLoop_round hd sizes fun _ hfull => ?_
          have hle := nextCut_le s (sizes 0) (Nat.le_trans hk long) hk
          have hlt : k < nextCut s k (sizes 0) := by
            by_cases full : k = maxHeaderSize
            · have := le_nextCut s k (sizes 0)
              omega
            · exact lt_nextCut s (sizes 0) (by omega) (by omega)
          exact ih _ (by omega) hle.2 _ rfl

/-- On a stream that cannot fill the buffer the loop ends at a cut that decides. -/
theorem decided_of_cutLoop (short : s.length < maxHeaderSize) {fuel k : Nat} (hk : k ≤ s.length)
    {sizes : Nat → Nat} {outcome : Outcome A4 A6}
    (h : cutLoop parse s fuel k sizes = some outcome) :
    ∃ n, decision parse s (cutAfter s k sizes n) ≠ none := by
  induction fuel generalizing k sizes with
  | zero => cases h
  | succ fuel ih =>
      cases hd : decision parse s k with
      | some d => exact ⟨0, by simp [cutAfter, hd]⟩
      | none =>
          have hle := nextCut_le s (sizes 0) hk (by omega)
          simp only [cutLoop, hd] at h
          split_ifs at h with hg hfull
          · exact ⟨1, by simp [cutAfter, decision_of_mismatch hg]⟩
          · omega
          · obtain ⟨n, hn⟩ := ih hle.1 h
            exact ⟨n + 1, hn⟩

/-- One way of splitting the stream. -/
theorem finishes_split_iff (parse : Parse A4 A6) (s : List UInt8) (sizes : Nat → Nat) :
    Finishes parse ⟨s, sizes⟩ ↔
      s ≠ [] ∧ (maxHeaderSize ≤ s.length ∨ ∃ n, decision parse s (readCut s sizes n) ≠ none) := by
  by_cases hs : s = []
  · subst hs
    refine iff_of_false ?_ fun h => h.1 rfl
    rintro ⟨outcome, ⟨fuel, h⟩, sound⟩
    rw [call_empty] at h
    exact sound (Option.some.inj h).symm
  · have hle := nextCut_le s (sizes 0) (Nat.zero_le s.length) (Nat.zero_le _)
    rw [finishes_iff_cuts hs]
    constructor
    · rintro ⟨fuel, outcome, h⟩
      refine ⟨hs, ?_⟩
      by_cases long : maxHeaderSize ≤ s.length
      · exact .inl long
      · exact .inr (decided_of_cutLoop (by omega) hle.1 h)
    · rintro ⟨-, long | ⟨n, hn⟩⟩
      · exact cutLoop_of_long long hle.2 _
      · exact cutLoop_of_decided hn

/-- The reads come to the end of a short stream, and stay there. -/
theorem cutAfter_end (short : s.length ≤ maxHeaderSize) {k : Nat} (hk : k ≤ s.length)
    (sizes : Nat → Nat) : ∃ n, cutAfter s k sizes n = s.length := by
  induction hn : s.length - k using Nat.strongRecOn generalizing k sizes with
  | ind n ih =>
      by_cases hend : k = s.length
      · exact ⟨0, hend⟩
      · have hm := lt_nextCut s (sizes 0) (k := k) (by omega) (by omega)
        have hle := nextCut_le s (sizes 0) hk (by omega)
        obtain ⟨n, hcut⟩ := ih _ (by omega) hle.1 (fun i => sizes (i + 1)) rfl
        exact ⟨n + 1, hcut⟩

/-- Reads that bring all there is. -/
theorem cutAfter_whole (short : s.length ≤ maxHeaderSize) {k : Nat} (hk : k ≤ s.length)
    (n : Nat) : cutAfter s k (fun _ => s.length) (n + 1) = s.length := by
  have whole : ∀ k, k ≤ s.length → nextCut s k s.length = s.length := by
    intro k hk
    rw [nextCut]
    omega
  induction n generalizing k with
  | zero => exact whole k hk
  | succ n ih =>
      rw [cutAfter, whole k hk]
      exact ih (Nat.le_refl _)

/-- All ways of splitting the stream. -/
theorem finishes_always_iff (parse : Parse A4 A6) (s : List UInt8) :
    (∀ sizes, Finishes parse ⟨s, sizes⟩) ↔
      s ≠ [] ∧ (maxHeaderSize ≤ s.length ∨ decision parse s s.length ≠ none) := by
  constructor
  · intro h
    refine ⟨((finishes_split_iff ..).mp (h fun _ => 0)).1, ?_⟩
    by_cases long : maxHeaderSize ≤ s.length
    · exact .inl long
    · obtain ⟨-, full | ⟨n, hn⟩⟩ := (finishes_split_iff ..).mp (h fun _ => s.length)
      · exact absurd full long
      · rw [readCut, cutAfter_whole (by omega) (Nat.zero_le _)] at hn
        exact .inr hn
  · rintro ⟨hs, long | decided⟩ sizes
    · exact (finishes_split_iff ..).mpr ⟨hs, .inl long⟩
    · by_cases long : maxHeaderSize ≤ s.length
      · exact (finishes_split_iff ..).mpr ⟨hs, .inl long⟩
      · have hle := nextCut_le s (sizes 0) (Nat.zero_le s.length) (Nat.zero_le _)
        obtain ⟨n, hcut⟩ := cutAfter_end (by omega) hle.1 fun i => sizes (i + 1)
        have cut : readCut s sizes n = s.length := hcut
        exact (finishes_split_iff ..).mpr ⟨hs, .inr ⟨n, by rw [cut]; exact decided⟩⟩

/-- The reading of a stream ends exactly when there is a first byte to look at, and
the stream can fill the buffer or is decided where one of the reads ends. It ends
however the stream is split exactly when there is a first byte, and the stream
can fill the buffer or is decided by all its bytes. -/
theorem header_reading_ends_iff (parse : Parse A4 A6) (s : List UInt8) :
    (∀ sizes, Finishes parse ⟨s, sizes⟩ ↔
      s ≠ [] ∧ (maxHeaderSize ≤ s.length ∨ ∃ n, decision parse s (readCut s sizes n) ≠ none)) ∧
    ((∀ sizes, Finishes parse ⟨s, sizes⟩) ↔
      s ≠ [] ∧ (maxHeaderSize ≤ s.length ∨ decision parse s s.length ≠ none)) :=
  ⟨finishes_split_iff parse s, finishes_always_iff parse s⟩

/-- The first byte of the magic, and the end of the stream: the loop never ends. -/
theorem closed_in_magic_never_finishes :
    PrefixParser parseV1Line ∧ ¬ Finishes parseV1Line ⟨[0x50], fun _ => 1⟩ := by
  refine ⟨parseV1Line_prefixParser, ?_⟩
  rintro ⟨outcome, ends, -⟩
  obtain ⟨fuel, h⟩ := (ends_iff_cuts (by simp)).mp ends
  have undecided : ∀ k, 0 < k → k ≤ lastCut [0x50] →
      decision parseV1Line [0x50] k = none := by
    intro k hpos hk
    obtain rfl : k = 1 := by
      simp [lastCut, maxHeaderSize] at hk
      omega
    decide
  rw [cutLoop_open undecided (by decide) fuel (by decide) (by decide)] at h
  cases h

end Monolake.ProxyProtocol
