import Mathlib.Algebra.Ring.Nat
import Redaction.Proofs.Merging

/-!
# Where reported spans lie

A span is reported with the portion that completes it. It ends in that portion, and it starts
before it by less than the length of the longest pattern, so a caller who keeps that many bytes back
but one still holds all of it.

Where a span starts is a difference of two numbers, and on words that is a number only if the second
is not the greater (`Span.startWord?`). It is not, even for hits where the pattern does not stand: a
cursor gains at most one with each byte, so a tracker that has come to the end of its pattern has
read as many bytes as the pattern has (`Tracker.length_le_of_mem_hits`).
-/

namespace Redaction

/-! ## Starts on words -/

namespace Span

/-- The sum of two words, if it is a word. -/
def addWord? (a b : UInt64) : Option UInt64 :=
  if a.toNat + b.toNat < 2 ^ 64 then some (a + b) else none

/-- The difference of two words, if it is a word. -/
def subWord? (a b : UInt64) : Option UInt64 := if b ≤ a then some (a - b) else none

/-- The start of a span on words, one operation after the other: `consumed` bytes stand in front of
the portion, and the span ends with the byte at `index` of the portion. -/
def startWord? (consumed index length : UInt64) : Option UInt64 :=
  (addWord? consumed index).bind fun position =>
    (addWord? position 1).bind fun stop => subWord? stop length

theorem addWord?_ofNat {a b : Nat} (h : a + b < 2 ^ 64) :
    addWord? (.ofNat a) (.ofNat b) = some (.ofNat (a + b)) := by
  have ha : (UInt64.ofNat a).toNat = a :=
    UInt64.toNat_ofNat_of_lt' (Nat.lt_of_le_of_lt (Nat.le_add_right a b) h)
  have hb : (UInt64.ofNat b).toNat = b :=
    UInt64.toNat_ofNat_of_lt' (Nat.lt_of_le_of_lt (Nat.le_add_left b a) h)
  rw [addWord?, ha, hb, if_pos h, UInt64.ofNat_add]

theorem subWord?_ofNat {a b : Nat} (ha : a < 2 ^ 64) (hb : b < 2 ^ 64) :
    subWord? (.ofNat a) (.ofNat b) = if b ≤ a then some (.ofNat (a - b)) else none := by
  simp only [subWord?, UInt64.ofNat_le_iff_le hb ha]
  split
  · rw [UInt64.ofNat_sub ‹_›]
  · rfl

/-- On words there is a start just when the span is no longer than what was read, and then it is
the right one. -/
theorem startWord?_ofNat {consumed index length : Nat} (h : consumed + index + 1 < 2 ^ 64)
    (hlen : length < 2 ^ 64) :
    startWord? (.ofNat consumed) (.ofNat index) (.ofNat length) =
      if length ≤ consumed + index + 1 then
        some (.ofNat (endingAt (consumed + index + 1) length).offset)
      else none := by
  rw [startWord?, addWord?_ofNat (by omega), Option.bind_some]
  exact (congrArg (Option.bind · _) (addWord?_ofNat h)).trans (subWord?_ofNat h hlen)

end Span

namespace Finder

variable {f : Finder}

/-! ## States that are reached -/

theorem fresh_afterEach_trackers {patterns portions : List Bytes} {t : Tracker}
    (ht : t ∈ ((fresh patterns).afterEach portions).trackers) :
    ∃ p ∈ patterns, t.pattern = Pattern.ofBytes p := by
  rw [afterEach_eq, feed_finder] at ht
  obtain ⟨u, hu, rfl⟩ := List.mem_map.mp ht
  obtain ⟨p, hp, rfl⟩ := List.mem_map.mp hu
  exact ⟨p, hp, Tracker.after_pattern _ _⟩

theorem Sound.afterEach (hf : f.Sound) (portions : List Bytes) : (f.afterEach portions).Sound := by
  rw [afterEach_eq]
  exact hf.feed _

/-- A tracker looks at no place behind the end of its pattern, wherever it is in a portion. -/
theorem Sound.isSome_get? (hf : f.Sound) {t : Tracker} (ht : t ∈ f.trackers) (bs : Bytes) :
    (t.after bs).cursor < t.pattern.length ∧ (t.pattern.get? (t.after bs).cursor).isSome ∧
      (t.pattern.get? (t.after bs).fallBack.cursor).isSome := by
  have hlt := Tracker.after_cursor_lt (hf t ht).1 bs
  have hback := Nat.lt_of_le_of_lt (t.after bs).fallBack_cursor_le hlt
  have hsome {n : Nat} (hn : n < t.pattern.length) : (t.pattern.get? n).isSome := by
    rw [← Pattern.getElem?_toList, List.getElem?_eq_getElem (by rwa [Pattern.length_toList])]
    rfl
  exact ⟨hlt, hsome hlt, hsome hback⟩

/-- The start of a span is right on words. -/
theorem Sound.startWord? (hf : f.Sound) {t : Tracker} (ht : t ∈ f.trackers) {portion : Bytes}
    {i : Nat} (hi : i ∈ t.hits portion) (h : f.consumed + portion.length < 2 ^ 64) :
    Span.startWord? (.ofNat f.consumed) (.ofNat i) (.ofNat t.pattern.length) =
      some (.ofNat (Span.endingAt (f.consumed + i + 1) t.pattern.length).offset) := by
  have hlt := Tracker.lt_length_of_mem_hits hi
  have hlen := Tracker.length_le_of_mem_hits hi
  have hcur := (hf t ht).2
  rw [Span.startWord?_ofNat (by omega) (by omega), if_pos (by omega)]

end Finder

/-- What is reported with a portion, whatever came before it. No tracker looks outside its pattern
while it reads the portion. As long as the bytes can be counted on words, no start of a span takes
a word out of its range. Every span that is reported is that of a hit, it is as long as one of the
patterns, it ends in the portion, and it starts less than the longest pattern before it. -/
theorem spans_in_bounds {patterns : List Bytes} (h : [] ∉ patterns) :
    ∃ fresh, Finder.ofPatterns patterns = .ok fresh ∧
      ∀ (portions : List Bytes) (portion : Bytes),
        let f := fresh.afterEach portions
        let next := (f.feed portion).1
        f.consumed = portions.flatten.length ∧ next.consumed = f.consumed + portion.length ∧
        (∀ t ∈ f.trackers, ∀ n, let u := t.after (portion.take n)
          u.cursor < t.pattern.length ∧ (t.pattern.get? u.cursor).isSome ∧
            (t.pattern.get? u.fallBack.cursor).isSome) ∧
        (next.consumed < 2 ^ 64 → ∀ t ∈ f.trackers, ∀ i ∈ t.hits portion,
          Span.startWord? (.ofNat f.consumed) (.ofNat i) (.ofNat t.pattern.length) =
            some (.ofNat (Span.endingAt (f.consumed + i + 1) t.pattern.length).offset)) ∧
        ∀ s ∈ (f.feed portion).2.spans,
          (∃ t ∈ f.trackers, ∃ i ∈ t.hits portion,
            s = Span.endingAt (f.consumed + i + 1) t.pattern.length) ∧
          s.length ∈ patterns.map List.length ∧
          f.consumed < s.offset + s.length ∧ s.offset + s.length ≤ next.consumed ∧
          f.consumed + 1 ≤ s.offset + f.longest := by
  refine ⟨.fresh patterns, Finder.ofPatterns_eq_ok_iff.mpr ⟨h, rfl⟩, fun portions portion => ?_⟩
  have hf := (Finder.sound_fresh h).afterEach portions
  have hnext := Finder.feed_consumed ((Finder.fresh patterns).afterEach portions) portion
  refine ⟨?_, hnext, fun t ht n => hf.isSome_get? ht _, ?_, ?_⟩
  · rw [Finder.afterEach_eq, Finder.feed_consumed]
    exact Nat.zero_add _
  · intro hwords t ht i hi
    rw [hnext] at hwords
    exact hf.startWord? ht hi hwords
  · intro s hs
    rw [Finder.feed_table] at hs
    have hspan := SpanTable.mem_of_mem_ofList hs
    obtain ⟨hbehind, hend, hstart⟩ := Finder.hitSpan_bounds hf hspan
    obtain ⟨t, ht, i, hi, rfl⟩ := Finder.mem_hitSpans.mp hspan
    obtain ⟨p, hp, hpattern⟩ := Finder.fresh_afterEach_trackers ht
    refine ⟨⟨t, ht, i, hi, rfl⟩, List.mem_map.mpr ⟨p, hp, ?_⟩, hbehind, ?_, hstart⟩
    · rw [Span.endingAt, hpattern, ← Pattern.length_toList, Pattern.toList_ofBytes]
    · rw [hnext]
      exact hend

/-- The false report of `aaab` in `aaaxab` begins two bytes before the portion that completes it. -/
theorem spans_in_bounds_falsely :
    ∃ fresh, Finder.ofPatterns [[97, 97, 97, 98], [120]] = .ok fresh ∧
      let f := fresh.afterEach [[97, 97], [97, 120]]
      let found := (f.feed [97, 98]).2
      f.consumed = 4 ∧ found.spans = [⟨2, 4⟩] ∧
        (∀ s ∈ found.spans, 4 < s.offset + s.length ∧ s.offset + s.length ≤ 6 ∧
          5 ≤ s.offset + f.longest) := by
  have hne : ([] : Bytes) ∉ ([[97, 97, 97, 98], [120]] : List Bytes) := by decide
  obtain ⟨fresh, hfresh, hall⟩ := spans_in_bounds hne
  obtain rfl := (Finder.ofPatterns_eq_ok_iff.mp hfresh).2
  obtain ⟨hconsumed, hnext, -, -, hspans⟩ := hall [[97, 97], [97, 120]] [97, 98]
  refine ⟨_, hfresh, hconsumed, by decide +kernel, fun s hs => ?_⟩
  obtain ⟨-, -, hbehind, hend, hstart⟩ := hspans s hs
  rw [hnext] at hend
  rw [hconsumed] at hbehind hend hstart
  exact ⟨hbehind, hend, hstart⟩

end Redaction
