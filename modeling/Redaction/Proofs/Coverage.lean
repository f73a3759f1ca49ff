import Redaction.Proofs.Hits

/-!
# Which offsets are covered

An offset of the stream is covered by what a finder has still to read when it lies in the
span of a hit (`Finder.Covers`). This is said of the trackers alone, one byte at a time;
the tables that portions are reported in do not occur in it.

A table forgets the shorter of two spans at one start. The longer covers all that the
shorter did, so a table covers just what the spans put into it cover (`covers_ofList`),
and the tables of a finder cover the offsets of its hits (`covers_iff_hitSpans`).

More bytes add only offsets that are close to the end: what lies `longest - 1` bytes before
it, or further, is decided (`covers_append_iff`). That is what makes masking a stream
while it passes possible at all.
-/

namespace Redaction

/-- The offset is one of the span's. -/
def Span.Contains (s : Span) (o : Nat) : Prop := s.offset ≤ o ∧ o < s.stop

namespace SpanTable

/-! ## Tables -/

def Covers (t : SpanTable) (o : Nat) : Prop := ∃ s ∈ t.spans, s.Contains o

theorem mem_insert_spans {t : SpanTable} {s x : Span} :
    x ∈ (t.insert s).spans ↔
      x.offset = s.offset ∧ x.length = max ((t.get? s.offset).getD 0) s.length ∨
        x.offset ≠ s.offset ∧ x ∈ t.spans := by
  obtain ⟨o, n⟩ := x
  rw [← get?_eq_some_iff, get?_insert, ← get?_eq_some_iff]
  by_cases ho : o = s.offset
  · simp [ho, eq_comm]
  · simp [ho]

/-- A table gains no span but the one put in. -/
theorem mem_of_mem_insert {t : SpanTable} {s x : Span} (h : x ∈ (t.insert s).spans) :
    x = s ∨ x ∈ t.spans := by
  obtain ⟨o, n⟩ := x
  obtain ⟨o', n'⟩ := s
  rcases mem_insert_spans.mp h with ⟨ho, hn⟩ | ⟨-, hmem⟩
  · obtain rfl : o = o' := ho
    cases hold : t.get? o with
    | none =>
        obtain rfl : n = n' := by simpa [hold] using hn
        exact .inl rfl
    | some k =>
        have hmax : n = max k n' := by simpa [hold] using hn
        rcases Nat.le_total k n' with hle | hle
        · rw [hmax, Nat.max_eq_right hle]
          exact .inl rfl
        · rw [hmax, Nat.max_eq_left hle]
          exact .inr (get?_eq_some_iff.mp hold)
  · exact .inr hmem

theorem covers_insert {t : SpanTable} {s : Span} {o : Nat} :
    (t.insert s).Covers o ↔ s.Contains o ∨ t.Covers o := by
  constructor
  · rintro ⟨x, hx, hxo⟩
    rcases mem_of_mem_insert hx with rfl | hx
    · exact .inl hxo
    · exact .inr ⟨x, hx, hxo⟩
  · -- Whatever stood at the start of the new span, what stands there now is as long.
    have hnew : ∀ k, k ≤ max ((t.get? s.offset).getD 0) s.length → s.offset ≤ o →
        o < s.offset + k → (t.insert s).Covers o := fun k hk hle hlt =>
      ⟨⟨s.offset, max ((t.get? s.offset).getD 0) s.length⟩,
        mem_insert_spans.mpr (.inl ⟨rfl, rfl⟩), hle,
        Nat.lt_of_lt_of_le hlt (Nat.add_le_add_left hk s.offset)⟩
    rintro (⟨hle, hlt⟩ | ⟨x, hx, hle, hlt⟩)
    · exact hnew s.length (Nat.le_max_right ..) hle hlt
    · by_cases ho : x.offset = s.offset
      · have hold : t.get? s.offset = some x.length := ho ▸ get?_eq_some_iff.mpr hx
        refine hnew x.length ?_ (ho ▸ hle) (ho ▸ hlt)
        rw [hold]
        exact Nat.le_max_left ..
      · exact ⟨x, mem_insert_spans.mpr (.inr ⟨ho, hx⟩), hle, hlt⟩

theorem covers_insertMany {t : SpanTable} {spans : List Span} {o : Nat} :
    (t.insertMany spans).Covers o ↔ (∃ s ∈ spans, s.Contains o) ∨ t.Covers o := by
  induction spans generalizing t with
  | nil => simp [insertMany]
  | cons s spans ih =>
      rw [insertMany, List.foldl_cons, ← insertMany, ih, covers_insert, ← or_assoc,
        or_comm (a := ∃ s ∈ spans, s.Contains o)]
      simp

theorem covers_ofList {spans : List Span} {o : Nat} :
    (ofList spans).Covers o ↔ ∃ s ∈ spans, s.Contains o := by
  rw [ofList, covers_insertMany]
  refine or_iff_left ?_
  rintro ⟨s, hs, -⟩
  cases hs

theorem mem_of_mem_ofList {spans : List Span} {x : Span} (h : x ∈ (ofList spans).spans) :
    x ∈ spans := by
  suffices hgen : ∀ t : SpanTable, x ∈ (t.insertMany spans).spans → x ∈ spans ∨ x ∈ t.spans by
    rcases hgen ∅ h with hx | hx
    · exact hx
    · cases hx
  clear h
  induction spans with
  | nil => exact fun t hx => .inr hx
  | cons s spans ih =>
      intro t hx
      rcases ih (t.insert s) hx with hx | hx
      · exact .inl (List.mem_cons_of_mem s hx)
      · rcases mem_of_mem_insert hx with rfl | hx
        · exact .inl List.mem_cons_self
        · exact .inr hx

end SpanTable

namespace Finder

/-! ## Hits -/

/-- The offset is in the span of a hit that some byte of the stream brings, and not before the
first byte of it. The stream is what the finder reads from now on. -/
def Covers (f : Finder) (stream : Bytes) (o : Nat) : Prop :=
  f.consumed ≤ o ∧ ∃ t ∈ f.trackers, ∃ i ∈ t.hits stream,
    o ≤ f.consumed + i ∧ f.consumed + i < o + t.pattern.length

instance (f : Finder) (stream : Bytes) : DecidablePred (f.Covers stream) := fun _ =>
  inferInstanceAs (Decidable (_ ∧ _))

theorem feed_cons (f : Finder) (b : UInt8) (bs : Bytes) :
    (f.feed (b :: bs)).1 = ((f.consume b).1.feed bs).1 := by
  simp [feed_finder, Nat.add_assoc, Nat.add_comm 1]

theorem hitSpans_append (f : Finder) (xs ys : Bytes) :
    f.hitSpans (xs ++ ys) = f.hitSpans xs ++ (f.feed xs).1.hitSpans ys := by
  induction xs generalizing f with
  | nil => rfl
  | cons x xs ih => simp [hitSpans, ih, feed_cons]

/-- Where the span of a hit can lie. -/
theorem hitSpan_bounds {f : Finder} (hf : f.Sound) {bs : Bytes} {s : Span}
    (hs : s ∈ f.hitSpans bs) :
    f.consumed < s.stop ∧ s.stop ≤ f.consumed + bs.length ∧
      f.consumed < s.offset + f.longest := by
  obtain ⟨t, ht, i, hi, rfl⟩ := mem_hitSpans.mp hs
  have hlen := Tracker.length_le_of_mem_hits hi
  have hcur := (hf t ht).2
  have hlongest := length_le_longest ht
  have hlt := Tracker.lt_length_of_mem_hits hi
  simp only [Span.stop, Span.endingAt]
  omega

theorem covers_iff_hitSpans {f : Finder} (hf : f.Sound) {stream : Bytes} {o : Nat} :
    f.Covers stream o ↔ f.consumed ≤ o ∧ ∃ s ∈ f.hitSpans stream, s.Contains o := by
  refine and_congr_right fun _ => ?_
  constructor
  · rintro ⟨t, ht, i, hi, hle, hlt⟩
    refine ⟨_, mem_hitSpans.mpr ⟨t, ht, i, hi, rfl⟩, ?_⟩
    simp only [Span.Contains, Span.stop, Span.endingAt]
    omega
  · rintro ⟨s, hs, hle, hlt⟩
    obtain ⟨t, ht, i, hi, rfl⟩ := mem_hitSpans.mp hs
    have hlen := Tracker.length_le_of_mem_hits hi
    have hcur := (hf t ht).2
    simp only [Span.stop, Span.endingAt] at hle hlt
    exact ⟨t, ht, i, hi, by omega, by omega⟩

/-! ## More bytes -/

theorem covers_append {f : Finder} (hf : f.Sound) {xs ys : Bytes} {o : Nat} :
    f.Covers (xs ++ ys) o ↔ f.Covers xs o ∨
      f.consumed ≤ o ∧ ∃ s ∈ (f.feed xs).1.hitSpans ys, s.Contains o := by
  simp only [covers_iff_hitSpans hf, hitSpans_append, List.mem_append, or_and_right, exists_or,
    and_or_left]

theorem Covers.append {f : Finder} (hf : f.Sound) {xs : Bytes} {o : Nat} (h : f.Covers xs o)
    (ys : Bytes) : f.Covers (xs ++ ys) o :=
  (covers_append hf).mpr (.inl h)

/-- What later bytes cannot reach any more is decided. -/
theorem covers_append_iff {f : Finder} (hf : f.Sound) {xs : Bytes} {o : Nat}
    (ho : o + (f.longest - 1) < f.consumed + xs.length) (ys : Bytes) :
    f.Covers (xs ++ ys) o ↔ f.Covers xs o := by
  rw [covers_append hf]
  refine or_iff_left ?_
  rintro ⟨-, s, hs, hle, -⟩
  have hbounds := hitSpan_bounds (hf.feed xs) hs
  simp only [feed_consumed, feed_longest] at hbounds
  omega

/-- What is covered has been read. -/
theorem Covers.lt {f : Finder} {stream : Bytes} {o : Nat} (h : f.Covers stream o) :
    o < f.consumed + stream.length := by
  obtain ⟨-, t, -, i, hi, hle, -⟩ := h
  have hlt := Tracker.lt_length_of_mem_hits hi
  omega

theorem not_covers_nil {f : Finder} {o : Nat} : ¬f.Covers [] o := fun h => by
  have := h.lt
  have := h.1
  simp at *
  omega

end Finder

end Redaction
