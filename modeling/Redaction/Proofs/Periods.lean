import Mathlib.Data.List.PeriodicityLemma
import Redaction.Overlap

/-!
# Periods of a pattern's beginnings

A beginning of a pattern has the period `d` if it agrees with itself when it is moved by `d` bytes
(`List.HasPeriod`). What then lies over itself is an ending with which the pattern begins. So a
beginning has as many periods as laps, each the length without that of a lap
(`hasPeriod_take_iff_isSuffix`), and `overlapShift`, which comes from the longest lap, is the least
of them (`hasPeriod_overlapShift`, `overlapShift_le_of_hasPeriod`).

A period of a beginning is one of every shorter beginning. The least period therefore does not
become smaller with more bytes (`overlapShift_mono`), and it stays what it is as long as the bytes
still have it (`overlapShift_eq_of_hasPeriod`).
-/

namespace Redaction

variable {pattern : Bytes} {c c' d : Nat}

/-! ## Periods and laps -/

theorem hasPeriod_iff_drop_eq :
    pattern.HasPeriod d ↔ pattern.drop d = pattern.take (pattern.length - d) := by
  constructor
  · intro h
    have hprefix := List.prefix_iff_eq_take.mp (h.drop_prefix d)
    rwa [List.length_drop] at hprefix
  · intro h
    have hagain : pattern.take d ++ pattern.take (pattern.length - d) <+:
        pattern.take d ++ pattern := (List.prefix_append_right_inj _).mpr (List.take_prefix ..)
    rwa [← h, List.take_append_drop] at hagain

theorem hasPeriod_take_iff_drop_eq (hc : c ≤ pattern.length) :
    (pattern.take c).HasPeriod d ↔ (pattern.take c).drop d = pattern.take (c - d) := by
  rw [hasPeriod_iff_drop_eq, List.length_take_of_le hc, List.take_take,
    Nat.min_eq_left (Nat.sub_le c d)]

/-- What a beginning has as a period is its length without that of a lap. -/
theorem hasPeriod_take_iff_isSuffix (hd : d ≤ c) (hc : c ≤ pattern.length) :
    (pattern.take c).HasPeriod d ↔ pattern.take (c - d) <:+ pattern.take c := by
  rw [hasPeriod_take_iff_drop_eq hc]
  constructor
  · intro h
    exact h ▸ List.drop_suffix d _
  · intro h
    have hdrop := List.suffix_iff_eq_drop.mp h
    rw [List.length_take_of_le hc, List.length_take_of_le (by omega), Nat.sub_sub_self hd] at hdrop
    exact hdrop.symm

/-- The pattern behind as much of it as a period goes on as a beginning with that period does. -/
theorem take_append_of_hasPeriod (hd : d ≤ c) (hc : c ≤ pattern.length)
    (h : (pattern.take c).HasPeriod d) :
    pattern.take d ++ pattern = pattern.take c ++ pattern.drop (c - d) := by
  have hfront : (pattern.take c).take d = pattern.take d := by
    rw [List.take_take, Nat.min_eq_left hd]
  have hbegin : pattern.take d ++ pattern.take (c - d) = pattern.take c := by
    rw [← hfront, ← (hasPeriod_take_iff_drop_eq hc).mp h, List.take_append_drop]
  rw [← hbegin, List.append_assoc, List.take_append_drop]

theorem hasPeriod_take_succ (hc : c < pattern.length) (h : (pattern.take c).HasPeriod d)
    (hd : d ≤ c) (hnext : pattern[c - d]? = pattern[c]?) : (pattern.take (c + 1)).HasPeriod d := by
  rw [hasPeriod_take_iff_isSuffix (c := c + 1) (by omega) hc, Nat.sub_add_comm hd]
  obtain ⟨front, hfront⟩ := (hasPeriod_take_iff_isSuffix hd (Nat.le_of_lt hc)).mp h
  have hb : pattern[c]? = some pattern[c] := List.getElem?_eq_getElem hc
  rw [take_succ_of_getElem? (hnext.trans hb), take_succ_of_getElem? hb]
  exact ⟨front, by rw [← hfront, List.append_assoc]⟩

/-! ## The least period -/

theorem overlapShift_pos (hc : 0 < c) : 0 < overlapShift pattern c :=
  Nat.sub_pos_of_lt (lapLength_lt pattern hc)

theorem sub_overlapShift (pattern : Bytes) (c : Nat) :
    c - overlapShift pattern c = lapLength pattern c :=
  Nat.sub_sub_self (lapLength_le pattern c)

theorem hasPeriod_overlapShift (hc : c ≤ pattern.length) :
    (pattern.take c).HasPeriod (overlapShift pattern c) := by
  rw [hasPeriod_take_iff_isSuffix (overlapShift_le pattern c) hc, sub_overlapShift]
  exact take_lapLength_isSuffix pattern c

theorem overlapShift_le_of_hasPeriod (hd : 0 < d) (hc : c ≤ pattern.length)
    (h : (pattern.take c).HasPeriod d) : overlapShift pattern c ≤ d := by
  rcases Nat.le_total c d with hle | hle
  · exact Nat.le_trans (overlapShift_le pattern c) hle
  · rcases Nat.eq_zero_or_pos c with rfl | hpos
    · exact Nat.le_trans (overlapShift_le pattern 0) (Nat.zero_le d)
    · have hlap := le_lapLength (by omega) hc ((hasPeriod_take_iff_isSuffix hle hc).mp h)
      unfold overlapShift
      omega

/-- What is a period of a longer beginning is one of a shorter. -/
theorem overlapShift_mono (hle : c ≤ c') (hc' : c' ≤ pattern.length) :
    overlapShift pattern c ≤ overlapShift pattern c' := by
  rcases Nat.eq_zero_or_pos c with rfl | hpos
  · exact Nat.le_trans (overlapShift_le pattern 0) (Nat.zero_le _)
  · obtain ⟨rest, hrest⟩ := List.take_prefix_take_left (l := pattern) hle
    have hperiod : (pattern.take c ++ rest).HasPeriod (overlapShift pattern c') :=
      hrest ▸ hasPeriod_overlapShift hc'
    exact overlapShift_le_of_hasPeriod (overlapShift_pos (by omega)) (by omega)
      (List.HasPeriod.factor (u := []) hperiod)

/-- A longer beginning that still has the least period of a shorter one has no smaller period. -/
theorem overlapShift_eq_of_hasPeriod (hpos : 0 < c) (hle : c ≤ c') (hc' : c' ≤ pattern.length)
    (h : (pattern.take c').HasPeriod (overlapShift pattern c)) :
    overlapShift pattern c' = overlapShift pattern c :=
  Nat.le_antisymm (overlapShift_le_of_hasPeriod (overlapShift_pos hpos) hc' h)
    (overlapShift_mono hle hc')

/-! ## Where a period ends -/

/-- A beginning is as long as it can be with a period that the whole pattern does not have. -/
theorem exists_last_hasPeriod (hc : c ≤ pattern.length) (hd : d ≤ c)
    (h : (pattern.take c).HasPeriod d) (hnot : ¬pattern.HasPeriod d) :
    ∃ last, c ≤ last ∧ last < pattern.length ∧ (pattern.take last).HasPeriod d ∧
      pattern[last - d]? ≠ pattern[last]? := by
  refine Classical.byContradiction fun hnone => hnot ?_
  have hall (n : Nat) (hle : c ≤ n) : n ≤ pattern.length → (pattern.take n).HasPeriod d := by
    induction n, hle using Nat.le_induction with
    | base => exact fun _ => h
    | succ n hle ih =>
        intro hn
        refine hasPeriod_take_succ hn (ih (by omega)) (by omega) ?_
        exact Classical.byContradiction fun hne => hnone ⟨n, hle, hn, ih (by omega), hne⟩
  have hwhole := hall pattern.length hc (Nat.le_refl _)
  rwa [List.take_length] at hwhole

end Redaction
