import Redaction.Proofs.Exactness
import Redaction.Proofs.Periods

/-!
# Recovery through an overlap

A pattern may begin anew inside itself. When its first `d` bytes are read and then all of it, with
`d` a period of a beginning, a tracker goes on as if the pattern stood where the bytes begin, until
the period ends. There the byte does not fit, and the least period of all that has been seen is
still `d` (`overlapShift_eq_of_hasPeriod`). So falling back once moves the pattern by `d`, just
under the place where it really stands. The byte fits there, and the rest of the pattern follows
(`Tracker.mem_hits_of_broken`).

If the period does not end before the pattern does, the pattern also stands where the bytes begin.
The tracker reports it there and starts over from nothing, and the few bytes that are left cannot
complete it again (`Tracker.mem_hits_of_whole`).
-/

namespace Redaction

namespace Tracker

variable {t u : Tracker} {p : Pattern} {bs : Bytes} {b : UInt8} {c d i : Nat}

/-! ## Trackers that do the same -/

/-- A tracker that fits after falling back reads the byte as if it had stood there. -/
theorem step_eq_of_fallBack (hmiss : ¬t.Fits b) (hfits : t.fallBack.Fits b) :
    t.step b = t.fallBack.step b := by
  rw [step, if_neg hmiss, if_pos hfits, step, if_pos hfits]

/-- Trackers that do the same with the first byte do the same with those behind it. -/
theorem hits_cons_congr (h : t.step b = u.step b) (bs : Bytes) :
    t.hits (b :: bs) = u.hits (b :: bs) := by
  simp only [hits, run, h]

theorem hits_eq_singleton (h : ∀ i, i ∈ t.hits bs ↔ i = c) : t.hits bs = [c] :=
  (t.pairwise_lt_hits bs).eq_of_mem_iff (List.pairwise_singleton ..) (by simpa using h)

/-! ## Beginnings and ends of the pattern -/

theorem notMem_hits_of_short (hzero : t.cursor = 0) (hlen : bs.length < t.pattern.length) :
    i ∉ t.hits bs := by
  intro hi
  have := length_le_of_mem_hits hi
  have := lt_length_of_mem_hits hi
  omega

/-- Wherever a tracker stands, the rest of its pattern brings it to one hit. -/
theorem mem_hits_drop_iff (hc : c < p.length) :
    i ∈ ({ pattern := p, cursor := c } : Tracker).hits (p.toList.drop c) ↔
      c + i + 1 = p.length := by
  constructor
  · intro hi
    have hlen : (p.toList.take c).length = c :=
      List.length_take_of_le (Nat.le_of_lt (p.length_toList ▸ hc))
    have hafter : ({ pattern := p } : Tracker).after (p.toList.take c) =
        { pattern := p, cursor := c } := after_take rfl hc
    have hwhole : c + i ∈ ({ pattern := p } : Tracker).hits (p.toList.take c ++ p.toList.drop c) :=
      mem_hits_append.mpr (.inr ⟨i, hafter ▸ hi, by rw [hlen]⟩)
    rw [List.take_append_drop] at hwhole
    exact (mem_hits_pattern rfl).mp hwhole
  · intro hlast
    obtain rfl : i = p.length - 1 - c := by omega
    exact mem_hits_drop hc

/-- If the byte at the lap does not fit where the cursor stands, the tracker reads what is behind
the lap as if it stood there. -/
theorem hits_drop_lap (hlap : p.lap c < p.length) (hbreak : p.get? (p.lap c) ≠ p.get? c) :
    ({ pattern := p, cursor := c } : Tracker).hits (p.toList.drop (p.lap c)) =
      ({ pattern := p, cursor := p.lap c } : Tracker).hits (p.toList.drop (p.lap c)) := by
  have hlen : p.lap c < p.toList.length := by rwa [Pattern.length_toList]
  have hget : p.get? (p.lap c) = some p.toList[p.lap c] :=
    (p.getElem?_toList _).symm.trans (List.getElem?_eq_getElem hlen)
  rw [List.drop_eq_getElem_cons hlen]
  refine hits_cons_congr (step_eq_of_fallBack (t := { pattern := p, cursor := c }) ?_ hget) _
  exact fun hfits => hbreak (hget.trans hfits.symm)

/-! ## The pattern behind a beginning of it -/

/-- With a period of the whole pattern it is reported where the bytes begin, and not again. -/
theorem mem_hits_of_whole (hd : d < p.length) (h : p.toList.HasPeriod d) :
    i ∈ ({ pattern := p } : Tracker).hits (p.toList.take d ++ p.toList) ↔ i + 1 = p.length := by
  have hlen : p.toList.length = p.length := p.length_toList
  have hsplit := take_append_of_hasPeriod (c := p.length) (Nat.le_of_lt hd) (Nat.le_of_eq hlen.symm)
    (by rwa [← hlen, List.take_length])
  rw [← hlen, List.take_length] at hsplit
  rw [hsplit, mem_hits_append, mem_hits_pattern rfl]
  refine or_iff_left ?_
  rintro ⟨j, hj, -⟩
  have hlast : p.length - 1 ∈ ({ pattern := p } : Tracker).hits p.toList :=
    (mem_hits_pattern rfl).mpr (Nat.sub_add_cancel (Nat.zero_lt_of_lt hd))
  have hzero := cursor_after_hit hlast
  rw [Nat.sub_add_cancel (Nat.zero_lt_of_lt hd), ← hlen, List.take_length] at hzero
  refine notMem_hits_of_short hzero ?_ hj
  rw [after_pattern, List.length_drop, hlen]
  show p.length - (p.length - d) < p.length
  omega

/-- Where the least period of what has been seen ends, the tracker falls back under the place where
the pattern stands, and it is reported there only. -/
theorem mem_hits_of_broken (hc : 0 < c) (hlt : c < p.length)
    (hnot : ¬p.toList.HasPeriod (overlapShift p.toList c)) :
    i ∈ ({ pattern := p } : Tracker).hits
        (p.toList.take (overlapShift p.toList c) ++ p.toList) ↔
      i + 1 = overlapShift p.toList c + p.length := by
  obtain ⟨d, hd⟩ : ∃ d, d = overlapShift p.toList c := ⟨_, rfl⟩
  have hpos : 0 < d := hd ▸ overlapShift_pos hc
  have hdc : d ≤ c := hd ▸ overlapShift_le p.toList c
  have hcle : c ≤ p.toList.length := Nat.le_of_lt (p.length_toList ▸ hlt)
  rw [← hd] at hnot ⊢
  obtain ⟨last, hle, hshort, hperiod, hbreak⟩ :=
    exists_last_hasPeriod hcle hdc (hd ▸ hasPeriod_overlapShift hcle) hnot
  have hlen : (p.toList.take last).length = last := List.length_take_of_le (Nat.le_of_lt hshort)
  have hlap : p.lap last = last - d := by
    rw [Pattern.lap_eq (Nat.le_of_lt (p.length_toList ▸ hshort)), ← sub_overlapShift, hd,
      overlapShift_eq_of_hasPeriod hc hle (Nat.le_of_lt hshort) (hd ▸ hperiod)]
  have hbehind := take_append_of_hasPeriod (Nat.le_trans hdc hle) (Nat.le_of_lt hshort) hperiod
  rw [Pattern.length_toList] at hshort
  have hafter : ({ pattern := p } : Tracker).after (p.toList.take last) =
      { pattern := p, cursor := last } := after_take rfl hshort
  -- Behind the beginning with the period comes what is behind its lap, and the first byte of it
  -- does not fit.
  rw [hbehind, mem_hits_append, hafter, hlen, ← hlap,
    hits_drop_lap (by omega) (by simpa [hlap] using hbreak)]
  constructor
  · rintro (hfront | ⟨j, hj, rfl⟩)
    · exact absurd hfront (notMem_hits_of_short rfl (hlen.symm ▸ hshort))
    · have := (mem_hits_drop_iff (by omega)).mp hj
      omega
  · intro hi
    exact .inr ⟨i - last, (mem_hits_drop_iff (by omega)).mpr (by omega), by omega⟩

end Tracker

/-- A fresh tracker that reads the pattern behind a beginning of it, as long as the least distance
at which the first `c` bytes of the pattern agree with themselves, reports it once. It reports it
where it stands behind that beginning, unless all of the pattern agrees with itself at that
distance. Then it stands where the bytes begin as well, and is reported only there. -/
theorem recovers_through_overlap {p : Bytes} {c : Nat} (hc : 0 < c) (hlt : c < p.length) :
    ∃ t f, Tracker.ofPattern p = .ok t ∧ Finder.ofPatterns [p] = .ok f ∧
      let d := overlapShift p c
      let stream := p.take d ++ p
      let start := if p.drop d = p.take (p.length - d) then 0 else d
      t.hits stream = [start + (p.length - 1)] ∧
        (f.feed stream).2.spans = [⟨start, p.length⟩] := by
  have hpos : 0 < p.length := Nat.zero_lt_of_lt hlt
  have hne : [] ∉ [p] := by
    simpa [eq_comm] using List.ne_nil_of_length_pos hpos
  have hlen : (Pattern.ofBytes p).length = p.length := (Pattern.length_toList _).symm
  refine ⟨{ pattern := Pattern.ofBytes p }, .fresh [p], if_neg ?_,
    Finder.ofPatterns_eq_ok_iff.mpr ⟨hne, rfl⟩, ?_⟩
  · simpa using List.ne_nil_of_length_pos hpos
  intro d stream start
  have hd : d < p.length := Nat.lt_of_le_of_lt (overlapShift_le p c) hlt
  have hhits : ({ pattern := Pattern.ofBytes p } : Tracker).hits stream =
      [start + (p.length - 1)] := by
    refine Tracker.hits_eq_singleton fun i => ?_
    by_cases hperiod : p.drop d = p.take (p.length - d)
    · have hmem := Tracker.mem_hits_of_whole (p := .ofBytes p) (i := i) (hlen ▸ hd)
        (hasPeriod_iff_drop_eq.mpr hperiod)
      rw [show start = 0 from if_pos hperiod]
      exact hmem.trans (by omega)
    · have hmem := Tracker.mem_hits_of_broken (p := .ofBytes p) (i := i) hc (hlen ▸ hlt)
        fun h => hperiod (hasPeriod_iff_drop_eq.mp h)
      rw [Pattern.toList_ofBytes, hlen] at hmem
      rw [show start = d from if_neg hperiod]
      exact hmem.trans (by omega)
  refine ⟨hhits, ?_⟩
  have hsingle (u : Tracker) : u ∈ (Finder.fresh [p]).trackers ↔
      u = { pattern := Pattern.ofBytes p } := List.mem_singleton
  have hstop : start + (p.length - 1) + 1 - p.length = start := by omega
  rw [Finder.spans_feed_of_single (Finder.sound_fresh hne) hsingle, Finder.spansOf, hhits, hlen]
  show [(⟨0 + (start + (p.length - 1)) + 1 - p.length, p.length⟩ : Span)] = _
  rw [Nat.zero_add, hstop]

/-- The pattern `foofoobar` behind its first three bytes, and `ababa` behind its first two. -/
theorem recovers_through_overlap_foo :
    (∃ t f, Tracker.ofPattern (Bytes.ofText "foofoobar") = .ok t ∧
      Finder.ofPatterns [Bytes.ofText "foofoobar"] = .ok f ∧
      t.hits (Bytes.ofText "foofoofoobar") = [11] ∧
        (f.feed (Bytes.ofText "foofoofoobar")).2.spans = [⟨3, 9⟩]) ∧
    (∃ t f, Tracker.ofPattern (Bytes.ofText "ababa") = .ok t ∧
      Finder.ofPatterns [Bytes.ofText "ababa"] = .ok f ∧
      t.hits (Bytes.ofText "abababa") = [4] ∧
        (f.feed (Bytes.ofText "abababa")).2.spans = [⟨0, 5⟩]) :=
  ⟨recovers_through_overlap (p := Bytes.ofText "foofoobar") (c := 6) (by decide)
      (by decide +kernel),
    recovers_through_overlap (p := Bytes.ofText "ababa") (c := 3) (by decide) (by decide +kernel)⟩

end Redaction
