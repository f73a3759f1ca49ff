import Redaction.Bytes

/-!
# How a pattern overlaps itself

After `c` bytes of a pattern have been seen and the next one does not fit, the
bytes seen may still end with a shorter beginning of the pattern. `longestLap`
finds the longest such ending, and `overlapShift` says how far the pattern has
to be moved along the stream for it to lie under that ending.

The search runs over the endings from the longest to the shortest, so the first
one that fits is the longest; the empty ending always fits. `lapLength` is the length
that it finds: smaller than the cursor, a length of an ending that begins the pattern,
and the largest of these.
-/

namespace Redaction

/-- The longest ending of the given bytes with which `pattern` begins. -/
def longestLap (pattern : Bytes) : Bytes → Bytes
  | [] => []
  | b :: rest => if (b :: rest).isPrefixOf pattern then b :: rest else longestLap pattern rest

theorem longestLap_isSuffix (pattern s : Bytes) : longestLap pattern s <:+ s := by
  induction s with
  | nil => exact List.suffix_refl []
  | cons b rest ih =>
      unfold longestLap
      split
      · exact List.suffix_refl _
      · exact ih.trans (List.suffix_cons b rest)

theorem longestLap_isPrefix (pattern s : Bytes) : longestLap pattern s <+: pattern := by
  induction s with
  | nil => exact List.nil_prefix
  | cons b rest ih =>
      unfold longestLap
      split
      · exact List.isPrefixOf_iff_prefix.mp ‹_›
      · exact ih

/-- No longer ending of the bytes begins the pattern. -/
theorem isSuffix_longestLap {pattern s t : Bytes} (hs : t <:+ s) (hp : t <+: pattern) :
    t <:+ longestLap pattern s := by
  induction s with
  | nil => exact hs
  | cons b rest ih =>
      unfold longestLap
      rcases List.suffix_cons_iff.mp hs with rfl | hs
      · split
        · exact List.suffix_refl _
        · exact absurd (List.isPrefixOf_iff_prefix.mpr hp) ‹_›
      · split
        · exact hs.trans (List.suffix_cons b rest)
        · exact ih hs

/-! ## Laps of a beginning -/

/-- The length of the longest beginning of the pattern that ends its first `cursor`
bytes and is shorter than they are; 0 at cursor 0. -/
def lapLength (pattern : Bytes) (cursor : Nat) : Nat :=
  (longestLap pattern (pattern.take cursor).tail).length

theorem lapLength_lt (pattern : Bytes) {cursor : Nat} (h : 0 < cursor) :
    lapLength pattern cursor < cursor := by
  have := (longestLap_isSuffix pattern (pattern.take cursor).tail).length_le
  simp only [List.length_tail, List.length_take] at this
  unfold lapLength
  omega

theorem lapLength_zero (pattern : Bytes) : lapLength pattern 0 = 0 := by
  simp [lapLength, longestLap]

theorem lapLength_le (pattern : Bytes) (cursor : Nat) : lapLength pattern cursor ≤ cursor := by
  rcases Nat.eq_zero_or_pos cursor with rfl | h
  · simp [lapLength_zero]
  · exact Nat.le_of_lt (lapLength_lt pattern h)

theorem take_lapLength_isSuffix (pattern : Bytes) (cursor : Nat) :
    pattern.take (lapLength pattern cursor) <:+ pattern.take cursor := by
  rw [lapLength, ← List.prefix_iff_eq_take.mp (longestLap_isPrefix ..)]
  exact (longestLap_isSuffix ..).trans (List.tail_suffix _)

/-- No longer beginning of the pattern ends there. -/
theorem le_lapLength {pattern : Bytes} {m cursor : Nat} (hm : m < cursor)
    (hc : cursor ≤ pattern.length) (h : pattern.take m <:+ pattern.take cursor) :
    m ≤ lapLength pattern cursor := by
  have htail : pattern.take m <:+ (pattern.take cursor).tail := by
    refine List.suffix_of_suffix_length_le h (List.tail_suffix _) ?_
    simp only [List.length_tail, List.length_take]
    omega
  have := (isSuffix_longestLap htail (List.take_prefix m pattern)).length_le
  simp only [List.length_take] at this
  unfold lapLength
  omega

theorem take_succ_of_getElem? {pattern : Bytes} {k : Nat} {b : UInt8} (h : pattern[k]? = some b) :
    pattern.take (k + 1) = pattern.take k ++ [b] := by
  simp [List.take_add_one, h]

/-- What ends one byte more ends without that byte what was there before. -/
theorem isSuffix_of_take_succ {pattern : Bytes} {j c : Nat} {b : UInt8} (hj : j < c)
    (hb : pattern[c]? = some b) (h : pattern.take (j + 1) <:+ pattern.take (c + 1)) :
    pattern[j]? = some b ∧ pattern.take j <:+ pattern.take c := by
  obtain ⟨hc, rfl⟩ := List.getElem?_eq_some_iff.mp hb
  have hj' : pattern[j]? = some pattern[j] := List.getElem?_eq_getElem (by omega)
  rw [take_succ_of_getElem? hj', take_succ_of_getElem? hb] at h
  obtain ⟨t, ht⟩ := h
  rw [← List.append_assoc] at ht
  obtain ⟨hpre, hlast⟩ := List.append_inj' ht rfl
  exact ⟨hj'.trans (congrArg some (List.singleton_inj.mp hlast)), t, hpre⟩

/-- With one byte more the lap grows by at most one. -/
theorem lapLength_succ_le {pattern : Bytes} {c : Nat} (h : c < pattern.length) :
    lapLength pattern (c + 1) ≤ lapLength pattern c + 1 := by
  cases hj : lapLength pattern (c + 1) with
  | zero => exact Nat.zero_le _
  | succ j =>
      have hlt : lapLength pattern (c + 1) < c + 1 := lapLength_lt pattern (Nat.succ_pos c)
      have hs := isSuffix_of_take_succ (by omega) (List.getElem?_eq_getElem h)
        (hj ▸ take_lapLength_isSuffix pattern (c + 1))
      exact Nat.succ_le_succ (le_lapLength (by omega) (Nat.le_of_lt h) hs.2)

/-- How far the pattern moves when its first `cursor` bytes have been seen and the
next one does not fit: the least positive distance at which those bytes still
agree with themselves. Nothing has been seen at cursor 0, and nothing moves. -/
def overlapShift (pattern : Bytes) (cursor : Nat) : Nat := cursor - lapLength pattern cursor

theorem overlapShift_le (pattern : Bytes) (cursor : Nat) :
    overlapShift pattern cursor ≤ cursor := Nat.sub_le ..

end Redaction
