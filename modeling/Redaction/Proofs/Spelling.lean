import Mathlib.Data.List.Nodup
import Redaction.Proofs.Merging

/-!
# What a hit says about the bytes before it

A tracker that falls back may lose a byte and still count what it had seen before. So the bytes
that its cursor stands for need not lie together in the stream. They are in it all the same, in
their order: the beginning of the pattern up to the cursor can be picked out of what was read since
the cursor was 0 (`Tracker.Spells`). Falling back leaves a shorter beginning, and a byte that fits
is the next one to pick, so every step keeps this (`Tracker.Spells.step`).

A hit picks the whole pattern, with the byte that brings it as the last. As the cursor is 0 behind
a hit, the next one has to pick the pattern anew. Hits of one tracker are therefore at least as far
apart as their pattern is long (`Tracker.pairwise_hits`), and for a single pattern what is reported
are spans that do not overlap.
-/

namespace Redaction

namespace Tracker

/-- The beginning of the pattern up to the cursor can be picked out of the bytes. -/
def Spells (t : Tracker) (seen : Bytes) : Prop :=
  (t.pattern.toList.take t.cursor).Sublist seen

variable {t : Tracker} {seen bs : Bytes} {b : UInt8}

/-! ## One byte -/

/-- The byte fits where the cursor stands or where it falls back to, or it is lost. -/
theorem step_cases (t : Tracker) (b : UInt8) :
    (∃ u, (u = t ∨ ¬t.Fits b ∧ u = t.fallBack) ∧ u.Fits b ∧ t.step b = u.advance) ∨
      ¬t.Fits b ∧ ¬t.fallBack.Fits b ∧ t.step b = (t.fallBack, false) := by
  unfold Tracker.step
  by_cases hfits : t.Fits b
  · exact .inl ⟨t, .inl rfl, hfits, if_pos hfits⟩
  · rw [if_neg hfits]
    by_cases hback : t.fallBack.Fits b
    · exact .inl ⟨t.fallBack, .inr ⟨hfits, rfl⟩, hback, if_pos hback⟩
    · exact .inr ⟨hfits, hback, if_neg hback⟩

/-- A hit completes the pattern: the byte fits its last place. -/
theorem complete_of_step (h : (t.step b).2 = true) :
    ∃ u, (u = t ∨ ¬t.Fits b ∧ u = t.fallBack) ∧ u.Fits b ∧ t.pattern.length = u.cursor + 1 ∧
      (t.step b).1.cursor = 0 := by
  rcases t.step_cases b with ⟨u, hu, hfits, hstep⟩ | ⟨-, -, hstep⟩
  · rw [hstep] at h ⊢
    have hlen := length_eq_of_advance h
    refine ⟨u, hu, hfits, ?_, ?_⟩
    · rcases hu with rfl | ⟨-, rfl⟩
      · exact hlen
      · exact hlen
    · rw [advance, if_pos hlen.symm]
  · rw [hstep] at h
    cases h

theorem spells_of_cursor (h : t.cursor = 0) (seen : Bytes) : t.Spells seen := by
  rw [Spells, h, List.take_zero]
  exact List.nil_sublist seen

theorem Spells.fallBack (h : t.Spells seen) : t.fallBack.Spells seen :=
  (List.take_prefix_take_left t.fallBack_cursor_le).sublist.trans h

theorem Spells.take_succ (h : t.Spells seen) (hfits : t.Fits b) :
    (t.pattern.toList.take (t.cursor + 1)).Sublist (seen ++ [b]) := by
  rw [take_succ_of_getElem? ((t.pattern.getElem?_toList t.cursor).trans hfits)]
  exact h.append (List.Sublist.refl [b])

theorem Spells.step (h : t.Spells seen) (b : UInt8) : (t.step b).1.Spells (seen ++ [b]) := by
  rcases t.step_cases b with ⟨u, hu, hfits, hstep⟩ | ⟨-, -, hstep⟩
  · have hspells : u.Spells seen := by
      rcases hu with rfl | ⟨-, rfl⟩
      · exact h
      · exact h.fallBack
    rw [hstep, advance]
    split
    · exact spells_of_cursor rfl _
    · exact hspells.take_succ hfits
  · rw [hstep]
    exact List.Sublist.trans h.fallBack (List.sublist_append_left seen [b])

theorem Spells.complete (h : t.Spells seen) (hhit : (t.step b).2 = true) :
    t.pattern.toList.Sublist (seen ++ [b]) ∧ t.pattern.toList.getLast? = some b := by
  obtain ⟨u, hu, hfits, hlen, -⟩ := complete_of_step hhit
  obtain ⟨hpattern, hspells⟩ : u.pattern = t.pattern ∧ u.Spells seen := by
    rcases hu with rfl | ⟨-, rfl⟩
    · exact ⟨rfl, h⟩
    · exact ⟨rfl, h.fallBack⟩
  have hall := hspells.take_succ hfits
  rw [hpattern, ← hlen, ← Pattern.length_toList, List.take_length] at hall
  refine ⟨hall, ?_⟩
  rw [List.getLast?_eq_getElem?, Pattern.length_toList, hlen, Nat.add_sub_cancel,
    Pattern.getElem?_toList, ← hpattern]
  exact hfits

/-! ## Runs -/

theorem Spells.after (h : t.Spells seen) (bs : Bytes) : (t.after bs).Spells (seen ++ bs) := by
  induction bs generalizing t seen with
  | nil => simpa using h
  | cons b bs ih => simpa using ih (h.step b)

theorem cursor_after_hit {j : Nat} (hj : j ∈ t.hits bs) :
    (t.after (bs.take (j + 1))).cursor = 0 := by
  obtain ⟨b, hb, hhit⟩ := mem_hits.mp hj
  obtain ⟨u, -, -, -, hzero⟩ := complete_of_step hhit
  rw [take_succ_of_getElem? hb, after_append]
  exact hzero

/-- The pattern can be picked out of the bytes from any place where the cursor was 0. -/
theorem sublist_of_mem_hits {i start : Nat} (hi : i ∈ t.hits bs) (hle : start ≤ i)
    (hzero : (t.after (bs.take start)).cursor = 0) :
    t.pattern.toList.Sublist ((bs.take (i + 1)).drop start) := by
  obtain ⟨b, hb, hhit⟩ := mem_hits.mp hi
  have hlt := lt_length_of_mem_hits hi
  have hlen : start ≤ (bs.take i).length := by
    rw [List.length_take]
    omega
  have hsplit : bs.take i = bs.take start ++ (bs.take i).drop start := by
    rw [← List.take_append_drop start (bs.take i), List.take_take, Nat.min_eq_left hle,
      List.drop_append_of_le_length (by rw [List.length_take]; omega)]
    simp
  rw [hsplit, after_append] at hhit
  have hspells := (spells_of_cursor hzero []).after ((bs.take i).drop start)
  have hall := (hspells.complete hhit).1
  rw [after_pattern, after_pattern, List.nil_append] at hall
  rwa [take_succ_of_getElem? hb, List.drop_append_of_le_length hlen]

/-! ## How far apart hits are -/

theorem pairwise_lt_hits (t : Tracker) (bs : Bytes) : (t.hits bs).Pairwise (· < ·) := by
  have hpositions : ((t.run bs).zipIdx.map Prod.snd).Pairwise (· < ·) := by
    rw [List.zipIdx_map_snd]
    exact List.pairwise_lt_range'
  rw [hits, List.pairwise_filterMap]
  refine (List.pairwise_map.mp hpositions).imp ?_
  rintro ⟨⟨_, hit⟩, i⟩ ⟨⟨_, hit'⟩, j⟩ hlt n hn k hk
  cases hit with
  | false => cases hn
  | true =>
      cases hit' with
      | false => cases hk
      | true =>
          obtain rfl := Option.some.inj hn
          obtain rfl := Option.some.inj hk
          exact hlt

theorem le_of_mem_hits {i j : Nat} (hi : i ∈ t.hits bs) (hj : j ∈ t.hits bs) (hlt : i < j) :
    i + t.pattern.length ≤ j := by
  have hlen := (sublist_of_mem_hits hj hlt (cursor_after_hit hi)).length_le
  rw [Pattern.length_toList, List.length_drop, List.length_take] at hlen
  omega

theorem pairwise_hits (t : Tracker) (bs : Bytes) :
    (t.hits bs).Pairwise fun i j => i + t.pattern.length ≤ j :=
  (t.pairwise_lt_hits bs).imp_of_mem fun hi hj hlt => le_of_mem_hits hi hj hlt

theorem hits_of_notMem (hzero : t.cursor = 0) {b : UInt8} (hb : b ∈ t.pattern.toList)
    (hlacks : b ∉ bs) : t.hits bs = [] := by
  refine List.eq_nil_iff_forall_not_mem.mpr ?_
  intro i hi
  have hall : t.pattern.toList.Sublist (bs.take (i + 1)) :=
    sublist_of_mem_hits hi (Nat.zero_le i) hzero
  exact hlacks (List.mem_of_mem_take (hall.subset hb))

end Tracker

/-! ## Reports for one pattern -/

namespace SpanTable

/-- Spans that come in the order of their starts, no two of them at one, are all kept. -/
theorem spans_ofList {spans : List Span} (h : spans.Pairwise fun a b => a.offset < b.offset) :
    (ofList spans).spans = spans := by
  have hstarts : (spans.map Span.offset).Nodup :=
    (List.pairwise_map.mpr h).imp Nat.ne_of_lt
  have hmem (s : Span) : s ∈ (ofList spans).spans ↔ s ∈ spans := by
    refine ⟨mem_of_mem_ofList, fun hs => ?_⟩
    rw [← get?_eq_some_iff (o := s.offset) (n := s.length), get?_ofList, List.max?_eq_some_iff]
    refine ⟨mem_lengthsAt.mpr hs, fun n hn => ?_⟩
    have hsame := List.inj_on_of_nodup_map hstarts (mem_lengthsAt.mp hn) hs rfl
    exact Nat.le_of_eq (congrArg Span.length hsame)
  have hreverse : (ofList spans).latestFirst = spans.reverse :=
    eq_of_descending (ofList spans).descending (List.pairwise_reverse.mpr h) fun s => by
      rw [List.mem_reverse, ← hmem, SpanTable.spans, List.mem_reverse]
  rw [SpanTable.spans, hreverse, List.reverse_reverse]

end SpanTable

namespace Finder

/-- The spans of a tracker's hits. -/
def spansOf (f : Finder) (t : Tracker) (bs : Bytes) : List Span :=
  (t.hits bs).map fun i => Span.endingAt (f.consumed + i + 1) t.pattern.length

variable {f : Finder} {t : Tracker}

theorem pairwise_spansOf (hf : f.Sound) (ht : t ∈ f.trackers) (bs : Bytes) :
    (f.spansOf t bs).Pairwise fun a b => a.stop ≤ b.offset := by
  rw [spansOf, List.pairwise_map]
  refine (t.pairwise_hits bs).imp_of_mem ?_
  intro i j hi _ hapart
  have hlen := Tracker.length_le_of_mem_hits hi
  have hcur := (hf t ht).2
  simp only [Span.stop, Span.endingAt]
  omega

/-- All that is reported for a single pattern. -/
theorem spans_feed_of_single (hf : f.Sound) (ht : ∀ u, u ∈ f.trackers ↔ u = t) (bs : Bytes) :
    (f.feed bs).2.spans = f.spansOf t bs := by
  have hmem (s : Span) : s ∈ f.hitSpans bs ↔ s ∈ f.spansOf t bs := by
    rw [mem_hitSpans, spansOf, List.mem_map]
    simp only [ht, exists_eq_left]
    exact exists_congr fun i => and_congr_right' eq_comm
  have htracker : t ∈ f.trackers := (ht t).mpr rfl
  rw [feed_table, SpanTable.ofList_congr hmem, SpanTable.spans_ofList]
  refine (pairwise_spansOf hf htracker bs).imp_of_mem ?_
  intro a b ha _ hapart
  obtain ⟨i, -, rfl⟩ := List.mem_map.mp ha
  have hpos := Nat.zero_lt_of_lt (hf t htracker).1
  exact Nat.lt_of_lt_of_le (Nat.lt_add_of_pos_right hpos) hapart

end Finder

/-- What a hit of a fresh tracker says. Its byte is the last of the pattern, and the pattern can be
picked, in order, out of the bytes up to it that came after any earlier hit. So two hits are at
least as far apart as the pattern is long, the spans that are reported for it do not overlap, and
nothing is reported in a stream that lacks one of its bytes. -/
theorem hits_spell_pattern {p : Bytes} (hp : p ≠ []) :
    ∃ t f, Tracker.ofPattern p = .ok t ∧ Finder.ofPatterns [p] = .ok f ∧
      ∀ stream : Bytes,
        (∀ i ∈ t.hits stream, stream[i]? = p.getLast? ∧
          ∀ start ≤ i, (start = 0 ∨ ∃ j ∈ t.hits stream, start = j + 1) →
            p.Sublist ((stream.take (i + 1)).drop start)) ∧
        (t.hits stream).Pairwise (fun i j => i + p.length ≤ j) ∧
        (f.feed stream).2.spans =
          (t.hits stream).map (fun i => Span.endingAt (i + 1) p.length) ∧
        (f.feed stream).2.spans.Pairwise (fun a b => a.stop ≤ b.offset) ∧
        ∀ b ∈ p, b ∉ stream → t.hits stream = [] := by
  let t : Tracker := { pattern := Pattern.ofBytes p }
  have hne : [] ∉ [p] := by simpa [eq_comm] using hp
  have hsound := Finder.sound_fresh hne
  have hlen : t.pattern.length = p.length := (Pattern.length_toList _).symm
  have hsingle (u : Tracker) : u ∈ (Finder.fresh [p]).trackers ↔ u = t := List.mem_singleton
  refine ⟨t, .fresh [p], if_neg (by simpa using hp), Finder.ofPatterns_eq_ok_iff.mpr ⟨hne, rfl⟩, ?_⟩
  intro stream
  have hspans := Finder.spans_feed_of_single hsound hsingle stream
  refine ⟨fun i hi => ⟨?_, ?_⟩, ?_, ?_, ?_, ?_⟩
  · obtain ⟨b, hb, hhit⟩ := Tracker.mem_hits.mp hi
    have hspells := (Tracker.spells_of_cursor (t := t) rfl []).after (stream.take i)
    have hlast := (hspells.complete hhit).2
    rw [Tracker.after_pattern] at hlast
    exact hb.trans hlast.symm
  · intro start hle hstart
    refine Tracker.sublist_of_mem_hits hi hle ?_
    rcases hstart with rfl | ⟨j, hj, rfl⟩
    · rfl
    · exact Tracker.cursor_after_hit hj
  · rw [← hlen]
    exact t.pairwise_hits stream
  · rw [hspans, Finder.spansOf, hlen]
    simp [Finder.fresh]
  · rw [hspans]
    exact Finder.pairwise_spansOf hsound ((hsingle t).mpr rfl) stream
  · intro b hb hlacks
    exact Tracker.hits_of_notMem rfl hb hlacks

/-- A false report: the tracker of `aaab` loses the `x` of `aaaxab`, keeps two of the three `a`
before it, and takes `ab` for the rest. -/
theorem hits_spell_pattern_falsely :
    ∃ t, Tracker.ofPattern [97, 97, 97, 98] = .ok t ∧
      let stream : Bytes := [97, 97, 97, 120, 97, 98]
      t.hits stream = [5] ∧ ¬[97, 97, 97, 98] <:+: stream ∧
        stream[5]? = ([97, 97, 97, 98] : Bytes).getLast? ∧
        [97, 97, 97, 98].Sublist stream := by
  obtain ⟨t, f, ht, -, hall⟩ := hits_spell_pattern (p := [97, 97, 97, 98]) (by decide)
  obtain rfl := Except.ok.inj ht
  obtain ⟨hhits, -⟩ := hall [97, 97, 97, 120, 97, 98]
  obtain ⟨hlast, hpicked⟩ := hhits 5 (by decide +kernel)
  exact ⟨_, ht, by decide +kernel, by decide +kernel, hlast, hpicked 0 (by decide) (.inl rfl)⟩

end Redaction
