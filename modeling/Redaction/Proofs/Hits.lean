import Redaction.Finder

/-!
# Where hits fall

A hit is known by its position in the bytes read (`mem_hits`), and whether there is one
at a position depends on the bytes up to it and on nothing behind it. So a run in two
parts has the hits of its first part and, moved along, those that the tracker goes on to
find in the second (`mem_hits_append`).

The cursor gains at most one with each byte and never reaches the pattern's length. A
tracker whose cursor is no larger than what has been consumed therefore cannot report
a pattern that is longer than what has been consumed (`length_le_of_mem_hits`). `Sound`
says this of all trackers of a finder; it holds of a new finder and is kept by reading,
and with it every span of a finder ends where its last byte was read (`mem_hitSpans`).
-/

namespace Redaction

theorem Pattern.lap_le (p : Pattern) (c : Nat) : p.lap c ≤ c := by
  rcases Nat.eq_zero_or_pos c with rfl | h
  · exact Nat.le_of_eq ((lap_eq (Nat.zero_le _)).trans (lapLength_zero _))
  · exact Nat.le_of_lt (p.lap_lt h)

namespace Tracker

/-! ## Positions of hits -/

theorem getElem?_run (t : Tracker) (bs : Bytes) (i : Nat) :
    (t.run bs)[i]? = bs[i]?.map fun b => (t.after (bs.take i)).step b := by
  induction bs generalizing t i with
  | nil => rfl
  | cons b bs ih =>
      cases i with
      | zero => rfl
      | succ i => simpa [run] using ih (t.step b).1 i

theorem mem_hits {t : Tracker} {bs : Bytes} {i : Nat} :
    i ∈ t.hits bs ↔ ∃ b, bs[i]? = some b ∧ ((t.after (bs.take i)).step b).2 = true := by
  simp only [hits, List.mem_filterMap]
  constructor
  · rintro ⟨⟨⟨u, hit⟩, j⟩, hmem, h⟩
    have hrun := List.mem_zipIdx_iff_getElem?.mp hmem
    rw [getElem?_run] at hrun
    obtain ⟨b, hb, hstep⟩ := Option.map_eq_some_iff.mp hrun
    cases hit with
    | false => cases h
    | true =>
        obtain rfl : j = i := Option.some.inj h
        exact ⟨b, hb, by rw [hstep]⟩
  · rintro ⟨b, hb, hhit⟩
    refine ⟨((t.after (bs.take i)).step b, i), List.mem_zipIdx_iff_getElem?.mpr ?_, ?_⟩
    · rw [getElem?_run, hb]
      rfl
    · simp [hhit]

theorem lt_length_of_mem_hits {t : Tracker} {bs : Bytes} {i : Nat} (h : i ∈ t.hits bs) :
    i < bs.length := by
  obtain ⟨b, hb, -⟩ := mem_hits.mp h
  exact (List.getElem?_eq_some_iff.mp hb).1

theorem mem_hits_append {t : Tracker} {xs ys : Bytes} {i : Nat} :
    i ∈ t.hits (xs ++ ys) ↔
      i ∈ t.hits xs ∨ ∃ j ∈ (t.after xs).hits ys, i = xs.length + j := by
  rcases Nat.lt_or_ge i xs.length with hi | hi
  · have hout : ¬∃ j ∈ (t.after xs).hits ys, i = xs.length + j := by
      rintro ⟨j, -, rfl⟩
      omega
    rw [mem_hits, List.getElem?_append_left hi, List.take_append_of_le_length (Nat.le_of_lt hi),
      ← mem_hits]
    exact (or_iff_left hout).symm
  · have hout : i ∉ t.hits xs := fun h => absurd (lt_length_of_mem_hits h) (Nat.not_lt.mpr hi)
    obtain ⟨j, rfl⟩ := Nat.exists_eq_add_of_le hi
    rw [mem_hits, List.getElem?_append_right hi, List.take_append, Nat.add_sub_cancel_left,
      List.take_of_length_le hi, after_append, ← mem_hits]
    constructor
    · exact fun h => .inr ⟨j, h, rfl⟩
    · rintro (h | ⟨k, hk, heq⟩)
      · exact absurd h hout
      · obtain rfl : j = k := by omega
        exact hk

/-! ## How far a cursor can be -/

theorem advance_cursor_le (t : Tracker) : t.advance.1.cursor ≤ t.cursor + 1 := by
  unfold advance
  split
  · exact Nat.zero_le _
  · exact Nat.le_refl _

theorem advance_cursor_lt {t : Tracker} (h : t.cursor < t.pattern.length) :
    t.advance.1.cursor < t.pattern.length := by
  unfold advance
  split
  · exact Nat.zero_lt_of_lt h
  · show t.cursor + 1 < _
    omega

theorem length_eq_of_advance {t : Tracker} (h : t.advance.2 = true) :
    t.pattern.length = t.cursor + 1 := by
  unfold advance at h
  split at h
  · exact Eq.symm ‹_›
  · cases h

theorem fallBack_cursor_le (t : Tracker) : t.fallBack.cursor ≤ t.cursor :=
  t.pattern.lap_le t.cursor

theorem step_cursor_le (t : Tracker) (b : UInt8) : (t.step b).1.cursor ≤ t.cursor + 1 := by
  have hback := t.fallBack_cursor_le
  unfold step
  split
  · exact t.advance_cursor_le
  · split
    · exact Nat.le_trans t.fallBack.advance_cursor_le (Nat.succ_le_succ hback)
    · exact Nat.le_succ_of_le hback

theorem step_cursor_lt {t : Tracker} (h : t.cursor < t.pattern.length) (b : UInt8) :
    (t.step b).1.cursor < t.pattern.length := by
  have hback : t.fallBack.cursor < t.fallBack.pattern.length :=
    Nat.lt_of_le_of_lt t.fallBack_cursor_le h
  unfold step
  split
  · exact advance_cursor_lt h
  · split
    · exact advance_cursor_lt hback
    · exact hback

theorem length_le_of_step {t : Tracker} {b : UInt8} (h : (t.step b).2 = true) :
    t.pattern.length ≤ t.cursor + 1 := by
  have hback := t.fallBack_cursor_le
  unfold step at h
  split at h
  · exact Nat.le_of_eq (length_eq_of_advance h)
  · split at h
    · have hlen : t.pattern.length = t.fallBack.cursor + 1 := length_eq_of_advance h
      omega
    · cases h

theorem after_cursor_le (t : Tracker) (bs : Bytes) :
    (t.after bs).cursor ≤ t.cursor + bs.length := by
  induction bs generalizing t with
  | nil => exact Nat.le_refl _
  | cons b bs ih =>
      have hstep := t.step_cursor_le b
      have hrest := ih (t.step b).1
      simp only [after_cons, List.length_cons]
      omega

theorem after_cursor_lt {t : Tracker} (h : t.cursor < t.pattern.length) (bs : Bytes) :
    (t.after bs).cursor < t.pattern.length := by
  induction bs generalizing t with
  | nil => exact h
  | cons b bs ih =>
      have hrest := ih (t := (t.step b).1) (by simpa using step_cursor_lt h b)
      simpa using hrest

/-- A pattern that is reported is no longer than what the cursor and the bytes up to the hit
come to. -/
theorem length_le_of_mem_hits {t : Tracker} {bs : Bytes} {i : Nat} (h : i ∈ t.hits bs) :
    t.pattern.length ≤ t.cursor + i + 1 := by
  obtain ⟨b, -, hhit⟩ := mem_hits.mp h
  have hlen := length_le_of_step hhit
  rw [after_pattern] at hlen
  have hcur := t.after_cursor_le (bs.take i)
  have := List.length_take_le i bs
  omega

end Tracker

namespace Finder

/-! ## The spans of a run -/

/-- The spans that the bytes complete, in the order in which they are found. -/
def hitSpans (f : Finder) : Bytes → List Span
  | [] => []
  | b :: bs => (f.consume b).2 ++ (f.consume b).1.hitSpans bs

theorem foldl_collect_table (f : Finder) (found : SpanTable) (portion : Bytes) :
    (portion.foldl collect (f, found)).2 = found.insertMany (f.hitSpans portion) := by
  induction portion generalizing f found with
  | nil => rfl
  | cons b portion ih =>
      rw [List.foldl_cons, collect, ih]
      simp [hitSpans, SpanTable.insertMany]

theorem feed_table (f : Finder) (portion : Bytes) :
    (f.feed portion).2 = SpanTable.ofList (f.hitSpans portion) :=
  foldl_collect_table f ∅ portion

theorem mem_consume_spans {f : Finder} {b : UInt8} {s : Span} :
    s ∈ (f.consume b).2 ↔ ∃ t ∈ f.trackers, (t.step b).2 = true ∧
      s = Span.endingAt (f.consumed + 1) t.pattern.length := by
  simp only [consume, List.mem_filterMap, List.mem_map]
  constructor
  · rintro ⟨_, ⟨t, ht, rfl⟩, h⟩
    cases hhit : (t.step b).2 with
    | false => simp [hhit] at h
    | true =>
        rw [hhit] at h
        exact ⟨t, ht, hhit, by simpa using (Option.some.inj h).symm⟩
  · rintro ⟨t, ht, hhit, rfl⟩
    exact ⟨t.step b, ⟨t, ht, rfl⟩, by simp [hhit]⟩

theorem mem_hitSpans {f : Finder} {bs : Bytes} {s : Span} :
    s ∈ f.hitSpans bs ↔ ∃ t ∈ f.trackers, ∃ i ∈ t.hits bs,
      s = Span.endingAt (f.consumed + i + 1) t.pattern.length := by
  induction bs generalizing f with
  | nil => simp [hitSpans, Tracker.hits, Tracker.run]
  | cons b bs ih =>
      rw [hitSpans, List.mem_append, mem_consume_spans, ih]
      have hsplit (t : Tracker) (i : Nat) : i ∈ t.hits (b :: bs) ↔
          i = 0 ∧ (t.step b).2 = true ∨ ∃ j ∈ (t.step b).1.hits bs, i = j + 1 := by
        cases i with
        | zero => simp [Tracker.mem_hits]
        | succ i => simp [Tracker.mem_hits]
      simp only [hsplit, consume_finder, List.mem_map]
      constructor
      · rintro (⟨t, ht, hhit, rfl⟩ | ⟨_, ⟨t, ht, rfl⟩, j, hj, rfl⟩)
        · exact ⟨t, ht, 0, .inl ⟨rfl, hhit⟩, rfl⟩
        · refine ⟨t, ht, j + 1, .inr ⟨j, hj, rfl⟩, ?_⟩
          rw [Tracker.step_pattern, Nat.add_right_comm f.consumed 1 j, Nat.add_assoc f.consumed j 1]
      · rintro ⟨t, ht, i, ⟨rfl, hhit⟩ | ⟨j, hj, rfl⟩, rfl⟩
        · exact .inl ⟨t, ht, hhit, rfl⟩
        · refine .inr ⟨_, ⟨t, ht, rfl⟩, j, hj, ?_⟩
          rw [Tracker.step_pattern, Nat.add_right_comm f.consumed 1 j, Nat.add_assoc f.consumed j 1]

/-! ## The longest pattern -/

theorem foldl_max_le {α : Type} {g : α → Nat} {l : List α} {n m : Nat} :
    l.foldl (fun k x => max k (g x)) n ≤ m ↔ n ≤ m ∧ ∀ x ∈ l, g x ≤ m := by
  induction l generalizing n with
  | nil => simp
  | cons x l ih =>
      rw [List.foldl_cons, ih, List.forall_mem_cons, Nat.max_le, and_assoc]

theorem length_le_longest {f : Finder} {t : Tracker} (h : t ∈ f.trackers) :
    t.pattern.length ≤ f.longest :=
  (foldl_max_le.mp (Nat.le_refl f.longest)).2 t h

@[simp] theorem feed_longest (f : Finder) (portion : Bytes) :
    (f.feed portion).1.longest = f.longest := by
  simp [longest, feed_finder, List.foldl_map, Tracker.after_pattern]

@[simp] theorem feed_consumed (f : Finder) (portion : Bytes) :
    (f.feed portion).1.consumed = f.consumed + portion.length := by
  rw [feed_finder]

/-! ## Soundness of a finder -/

/-- No cursor stands behind the end of its pattern, nor further than bytes have been
consumed. -/
def Sound (f : Finder) : Prop :=
  ∀ t ∈ f.trackers, t.cursor < t.pattern.length ∧ t.cursor ≤ f.consumed

theorem Sound.feed {f : Finder} (hf : f.Sound) (portion : Bytes) : (f.feed portion).1.Sound := by
  rw [feed_finder]
  intro t ht
  obtain ⟨u, hu, rfl⟩ := List.mem_map.mp ht
  obtain ⟨hlt, hle⟩ := hf u hu
  have hcur := u.after_cursor_le portion
  exact ⟨by simpa [Tracker.after_pattern] using Tracker.after_cursor_lt hlt portion,
    show (u.after portion).cursor ≤ f.consumed + portion.length by omega⟩

/-! ## New finders -/

/-- The finder for some patterns that has read nothing. -/
def fresh (patterns : List Bytes) : Finder :=
  { trackers := patterns.map ({ pattern := Pattern.ofBytes · }) }

theorem ofPatterns_eq_ok_iff {patterns : List Bytes} {f : Finder} :
    Finder.ofPatterns patterns = .ok f ↔ [] ∉ patterns ∧ f = fresh patterns := by
  have hnone : patterns.findIdx? (·.isEmpty) = none ↔ [] ∉ patterns := by
    rw [List.findIdx?_eq_none_iff]
    constructor
    · intro h hmem
      cases h [] hmem
    · intro h p hp
      cases p with
      | nil => exact absurd hp h
      | cons => rfl
  rw [← hnone, ofPatterns]
  cases patterns.findIdx? (·.isEmpty) with
  | none => simp [fresh, eq_comm]
  | some i => simp

theorem sound_fresh {patterns : List Bytes} (h : [] ∉ patterns) : (fresh patterns).Sound := by
  intro t ht
  obtain ⟨p, hp, rfl⟩ := List.mem_map.mp ht
  refine ⟨?_, Nat.le_refl 0⟩
  show 0 < (Pattern.ofBytes p).length
  rw [← Pattern.length_toList, Pattern.toList_ofBytes]
  exact List.length_pos_iff.mpr fun hnil => h (hnil ▸ hp)

end Finder

end Redaction
