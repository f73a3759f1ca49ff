import Mathlib.Order.Bounds.Defs
import Redaction.Proofs.Periods
import Redaction.Tracker

/-!
# Borders of a pattern's beginnings

A border begins some bytes and ends them and is shorter than they are (`Bytes.IsBorder`). The
borders of a beginning of a pattern are the shorter beginnings that end it (`isBorder_take_iff`),
and the longest of them is the one that a tracker falls back on.

Of two borders the shorter is a border of the longer, since both end the same bytes. So the borders
of the longest are all the others, and falling back again and again passes each of them, from the
longest down to the empty one (`mem_fallBacks_iff`, `pairwise_fallBacks`, `getLast?_fallBacks`).
-/

namespace Redaction

/-- The bytes begin with the border, end with it, and are more than it. -/
def Bytes.IsBorder (border bs : Bytes) : Prop :=
  border <+: bs ∧ border <:+ bs ∧ border.length < bs.length

/-- Where falling back leads from the cursor, again and again until nothing is left. -/
def fallBacks (pattern : Bytes) (cursor : Nat) : List Nat :=
  if _h : 0 < cursor then
    let next := cursor - overlapShift pattern cursor
    next :: fallBacks pattern next
  else []
termination_by cursor
decreasing_by exact Nat.sub_lt _h (overlapShift_pos _h)

variable {pattern border : Bytes} {c d n : Nat}

/-! ## All borders -/

theorem isBorder_take_iff (hc : c ≤ pattern.length) :
    border.IsBorder (pattern.take c) ↔
      ∃ n, (n < c ∧ pattern.take n <:+ pattern.take c) ∧ pattern.take n = border := by
  constructor
  · rintro ⟨hbegins, hends, hlt⟩
    have htake : pattern.take border.length = border :=
      (List.prefix_iff_eq_take.mp (hbegins.trans (List.take_prefix c pattern))).symm
    rw [List.length_take_of_le hc] at hlt
    exact ⟨border.length, ⟨hlt, htake.symm ▸ hends⟩, htake⟩
  · rintro ⟨n, ⟨hlt, hends⟩, rfl⟩
    refine ⟨List.take_prefix_take_left (Nat.le_of_lt hlt), hends, ?_⟩
    rwa [List.length_take_of_le (by omega), List.length_take_of_le hc]

theorem mem_fallBacks_iff (hc : c ≤ pattern.length) :
    n ∈ fallBacks pattern c ↔ n < c ∧ pattern.take n <:+ pattern.take c := by
  fun_induction fallBacks pattern c with
  | case1 c hpos next ih =>
      have hnext : next = lapLength pattern c := sub_overlapShift pattern c
      have hlt : next < c := hnext ▸ lapLength_lt pattern hpos
      have hends : pattern.take next <:+ pattern.take c :=
        hnext ▸ take_lapLength_isSuffix pattern c
      rw [List.mem_cons, ih (by omega)]
      constructor
      · rintro (rfl | ⟨hlt', hends'⟩)
        · exact ⟨hlt, hends⟩
        · exact ⟨Nat.lt_trans hlt' hlt, hends'.trans hends⟩
      · rintro ⟨hlt', hends'⟩
        have hle : n ≤ next := hnext ▸ le_lapLength hlt' hc hends'
        rcases Nat.eq_or_lt_of_le hle with heq | hshorter
        · exact .inl heq
        · -- Both end the same bytes, so the shorter ends the longer.
          refine .inr ⟨hshorter, List.suffix_of_suffix_length_le hends' hends ?_⟩
          rw [List.length_take_of_le (by omega), List.length_take_of_le (by omega)]
          exact hle
  | case2 c hzero =>
      simp only [List.not_mem_nil, false_iff, not_and]
      omega

theorem pairwise_fallBacks (hc : c ≤ pattern.length) :
    (fallBacks pattern c).Pairwise fun m n => n < m := by
  fun_induction fallBacks pattern c with
  | case1 c hpos next ih =>
      have hle : next ≤ pattern.length := Nat.le_trans (Nat.sub_le ..) hc
      exact List.pairwise_cons.mpr ⟨fun n hn => ((mem_fallBacks_iff hle).mp hn).1, ih hle⟩
  | case2 => exact List.Pairwise.nil

theorem getLast?_fallBacks (hpos : 0 < c) : (fallBacks pattern c).getLast? = some 0 := by
  fun_induction fallBacks pattern c with
  | case1 c _ next ih =>
      rcases Nat.eq_zero_or_pos next with hzero | hmore
      · rw [hzero, fallBacks]
        rfl
      · rw [List.getLast?_cons, ih hmore]
        rfl
  | case2 => contradiction

/-! ## The least period and the longest border -/

theorem hasPeriod_take_iff_getElem? (hc : c ≤ pattern.length) :
    (pattern.take c).HasPeriod d ↔ ∀ j, j + d < c → pattern[j]? = pattern[j + d]? := by
  rw [List.hasPeriod_iff_getElem?, List.length_take_of_le hc]
  refine forall_congr' fun j => ?_
  rw [Nat.lt_sub_iff_add_lt]
  refine imp_congr_right fun hj => ?_
  rw [List.getElem?_take_of_lt hj, List.getElem?_take_of_lt (by omega)]

theorem isLeast_overlapShift (hpos : 0 < c) (hc : c ≤ pattern.length) :
    IsLeast {d | 0 < d ∧ ∀ j, j + d < c → pattern[j]? = pattern[j + d]?}
      (overlapShift pattern c) := by
  constructor
  · exact ⟨overlapShift_pos hpos, (hasPeriod_take_iff_getElem? hc).mp (hasPeriod_overlapShift hc)⟩
  · rintro d ⟨hd, hperiod⟩
    exact overlapShift_le_of_hasPeriod hd hc ((hasPeriod_take_iff_getElem? hc).mpr hperiod)

/-- What is left when the pattern moves is the longest border. -/
theorem isGreatest_border (hpos : 0 < c) (hc : c ≤ pattern.length) :
    IsGreatest {n | ∃ border : Bytes, border.IsBorder (pattern.take c) ∧ border.length = n}
      (c - overlapShift pattern c) := by
  have hlt := lapLength_lt pattern hpos
  rw [sub_overlapShift]
  constructor
  · refine ⟨pattern.take (lapLength pattern c), (isBorder_take_iff hc).mpr ⟨_, ⟨hlt, ?_⟩, rfl⟩, ?_⟩
    · exact take_lapLength_isSuffix pattern c
    · exact List.length_take_of_le (by omega)
  · rintro _ ⟨border, hborder, rfl⟩
    obtain ⟨n, ⟨hn, hends⟩, rfl⟩ := (isBorder_take_iff hc).mp hborder
    rw [List.length_take_of_le (by omega)]
    exact le_lapLength hn hc hends

/-- What a pattern moves by when a byte does not fit behind its first `c` bytes. It is the least
period of these, and what is left of them is their longest border. Falling back again and again
gives all borders, each once and the longest first, and ends with the empty one. With more bytes
the pattern moves by no less, so that what is left of them grows by one at most with each. The table
of the pattern has the same, and a tracker falls back by it. -/
theorem overlapShift_least_period {pattern : Bytes} {c : Nat} (hpos : 0 < c)
    (hc : c ≤ pattern.length) :
    let seen := pattern.take c
    let shift := overlapShift pattern c
    IsLeast {d | 0 < d ∧ ∀ j, j + d < c → pattern[j]? = pattern[j + d]?} shift ∧
      IsGreatest {n | ∃ border : Bytes, border.IsBorder seen ∧ border.length = n} (c - shift) ∧
      (∀ border : Bytes, border ∈ (fallBacks pattern c).map pattern.take ↔
        border.IsBorder seen) ∧
      (fallBacks pattern c).Pairwise (fun m n => n < m) ∧
      (fallBacks pattern c).getLast? = some 0 ∧
      (∀ c', c ≤ c' → c' ≤ pattern.length → shift ≤ overlapShift pattern c') ∧
      (c < pattern.length → c + 1 - overlapShift pattern (c + 1) ≤ c - shift + 1) ∧
      (Pattern.ofBytes pattern).shift c = shift ∧
      ({ pattern := .ofBytes pattern, cursor := c } : Tracker).fallBack.cursor = c - shift := by
  intro seen shift
  refine ⟨isLeast_overlapShift hpos hc, isGreatest_border hpos hc, fun border => ?_,
    pairwise_fallBacks hc, getLast?_fallBacks hpos, fun c' hle hc' => overlapShift_mono hle hc',
    fun hlt => ?_, Pattern.shift_eq hc, ?_⟩
  · rw [isBorder_take_iff hc, List.mem_map]
    simp only [mem_fallBacks_iff hc]
  · rw [sub_overlapShift, sub_overlapShift]
    exact lapLength_succ_le hlt
  · rw [sub_overlapShift]
    exact Pattern.lap_eq hc

/-- The borders of `abaabaab` are `abaab`, `ab` and nothing. -/
theorem overlapShift_least_period_abaabaab :
    let p := Bytes.ofText "abaabaab"
    overlapShift p 8 = 3 ∧ (∀ d, 0 < d → (∀ j, j + d < 8 → p[j]? = p[j + d]?) → 3 ≤ d) ∧
      (∀ border : Bytes, border.IsBorder p ↔
        border ∈ [Bytes.ofText "abaab", Bytes.ofText "ab", []]) ∧
      ({ pattern := .ofBytes p, cursor := 8 } : Tracker).fallBack.cursor = 5 := by
  intro p
  have hshift : overlapShift p 8 = 3 := by decide +kernel
  have hlist : (fallBacks p 8).map p.take = [Bytes.ofText "abaab", Bytes.ofText "ab", []] := by
    decide +kernel
  have hwhole : p.take 8 = p := by decide +kernel
  have hlen : 8 ≤ p.length := by decide +kernel
  obtain ⟨⟨-, hleast⟩, -, hborders, -, -, -, -, -, hback⟩ :=
    overlapShift_least_period (by decide) hlen
  rw [hshift] at hleast hback
  rw [hlist, hwhole] at hborders
  exact ⟨hshift, fun d hd hperiod => hleast ⟨hd, hperiod⟩, fun border => (hborders border).symm,
    hback⟩

end Redaction
