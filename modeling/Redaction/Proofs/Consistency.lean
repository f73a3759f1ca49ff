import Redaction.Proofs.Dealing

/-!
# A masker stays consistent, whatever the sink does

A sink may refuse any act. What was hidden before stays done with, the bytes held stay
held, and the next portion comes in all the same. The ranges that are left then start where
they started, which is not before the bytes held, so the masker is as consistent as it was;
where nothing is refused it is so by the acts that fit it (`Masker.Consistent.deals`).

The main result, `every_run_consistent`, says this of all maskers that a run can reach. With
it go the bounds that a consistent masker gives to each act that it plans (`Act.InBounds`),
and the number of bytes held after a portion that was not refused.
-/

namespace Redaction

namespace Cover

theorem foldl_add (base : Nat) (c : Cover) (spans : List Span) :
    spans.foldl (add base) c =
      (spans.map fun s => (⟨s.offset, s.stop⟩ : Range)).foldl (addRange base) c := by
  rw [List.foldl_map]
  rfl

theorem covers_foldl_add {base : Nat} {c : Cover} {spans : List Span} {o : Nat} :
    (spans.foldl (add base) c).Covers o ↔
      (base ≤ o ∧ ∃ s ∈ spans, s.Contains o) ∨ c.Covers o := by
  rw [foldl_add, covers_foldl_addRange]
  refine or_congr_left (and_congr_right fun _ => ⟨?_, ?_⟩)
  · rintro ⟨r, hr, hro⟩
    obtain ⟨s, hs, rfl⟩ := List.mem_map.mp hr
    exact ⟨s, hs, hro⟩
  · rintro ⟨s, hs, hso⟩
    exact ⟨_, List.mem_map_of_mem hs, hso⟩

theorem canonical_foldl_add {base : Nat} {c : Cover} (hc : c.Canonical base) (spans : List Span) :
    (spans.foldl (add base) c).Canonical base := by
  rw [foldl_add]
  exact canonical_foldl_addRange hc _

theorem Canonical.stop_le {base n : Nat} {c : Cover} (hc : c.Canonical base)
    (h : ∀ o, c.Covers o → o < n) {r : Range} (hr : r ∈ c.toList) : r.stop ≤ n := by
  have hne := (hc.1 r hr).2
  have hlast := h (r.stop - 1) ⟨r, hr, by omega, by omega⟩
  omega

end Cover

namespace Masker

/-! ## What a masker does -/

theorem consistent_start {f : Finder} (hf : f.Sound) (marker : Bytes) :
    (start f marker).Consistent (start f marker).held where
  sound := hf
  held_length := rfl
  canonical := ⟨fun _ hr => absurd hr List.not_mem_nil, List.Pairwise.nil⟩
  within := fun _ hr => absurd hr List.not_mem_nil

theorem absorb_eq (m : Masker) (portion : Bytes) :
    (m.absorb portion).1 =
      { m with
        finder := (m.finder.feed portion).1
        held := m.held.push portion
        seen := m.seen.merge (m.finder.feed portion).2
        cover := (m.finder.feed portion).2.spans.foldl (Cover.add m.held.start) m.cover } := rfl

/-- Of the offsets held, a portion adds those that its hits cover. -/
theorem covers_absorb {m : Masker} {portion : Bytes} {o : Nat} (ho : m.held.start ≤ o) :
    (m.absorb portion).1.cover.Covers o ↔
      m.cover.Covers o ∨ ∃ s ∈ m.finder.hitSpans portion, s.Contains o := by
  rw [absorb_eq, Cover.covers_foldl_add, Finder.feed_table, or_comm]
  refine or_congr_right ((and_iff_right ho).trans SpanTable.covers_ofList)

theorem Consistent.absorb {m : Masker} (hc : m.Consistent m.held) (portion : Bytes) :
    (m.absorb portion).1.Consistent (m.absorb portion).1.held := by
  have hcanonical := Cover.canonical_foldl_add hc.canonical (m.finder.feed portion).2.spans
  rw [absorb_eq]
  refine ⟨hc.sound.feed portion, ?_, hcanonical, fun r hr => hcanonical.stop_le (fun o ho => ?_) hr⟩
  · have hlen := hc.held_length
    simp only [Held.toList_push, Held.start_push, List.length_append, Finder.feed_consumed]
    omega
  · rw [Finder.feed_consumed]
    rcases Cover.covers_foldl_add.mp ho with ⟨-, s, hs, -, hlt⟩ | ⟨x, hx, -, hlt⟩
    · rw [Finder.feed_table] at hs
      have := Finder.hitSpan_bounds hc.sound (SpanTable.mem_of_mem_ofList hs)
      omega
    · have := hc.within x hx
      omega

theorem Consistent.deliver {m : Masker} (hc : m.Consistent m.held) {upto : Nat}
    (hupto : upto ≤ m.finder.consumed) (sink : Sink) :
    (m.deliver sink upto).masker.Consistent (m.deliver sink upto).masker.held ∧
      (m.deliver sink upto).masker.finder = m.finder ∧
      ((m.deliver sink upto).error = none → upto ≤ (m.deliver sink upto).masker.held.start) := by
  obtain ⟨m', left', hdeals, ⟨-, -, hmasker, hfar⟩ | ⟨hsome, hmasker⟩⟩ :=
    deliver_cases hc hupto sink
  · obtain ⟨hsound, hlen, hcanonical, hwithin⟩ := (hc.refill upto).deals hdeals
    rw [hmasker]
    exact ⟨⟨hsound, hlen, hcanonical, hwithin⟩, hdeals.frame.1, fun _ => hfar⟩
  · -- What is left of the ranges starts even later than it has to.
    have hstopped := (hc.refill upto).deals hdeals
    obtain ⟨hfinder, hheld, -, hle⟩ := hdeals.frame
    rw [hmasker]
    refine ⟨⟨hstopped.sound, ?_, hstopped.canonical.rebase fun r hr => ?_, hstopped.within⟩,
      hfinder, fun hnone => absurd hnone hsome⟩
    · rw [hheld, hfinder]
      exact hc.held_length
    · rw [hheld]
      exact Nat.le_trans hle (hstopped.canonical.1 r hr).1

theorem absorb_lag (m : Masker) (portion : Bytes) : (m.absorb portion).1.lag = m.lag := by
  rw [absorb_eq, lag, lag, Finder.feed_longest]

theorem write_eq (m : Masker) (sink : Sink) (portion : Bytes) :
    m.write sink portion =
      { (m.absorb portion).1.deliver sink ((m.absorb portion).1.finder.consumed - m.lag) with
        found := (m.absorb portion).2 } := by
  rw [← absorb_lag m portion]
  rfl

theorem Consistent.write {m : Masker} (hc : m.Consistent m.held) (sink : Sink) (portion : Bytes) :
    (m.write sink portion).masker.Consistent (m.write sink portion).masker.held := by
  rw [write_eq]
  exact ((hc.absorb portion).deliver (Nat.sub_le ..) sink).1

/-- A portion that was not refused leaves no more than the lag. -/
theorem Consistent.length_held_write {m : Masker} (hc : m.Consistent m.held) {sink : Sink}
    {portion : Bytes} (h : (m.write sink portion).error = none) :
    (m.write sink portion).masker.held.toList.length ≤ m.lag := by
  rw [write_eq] at h ⊢
  obtain ⟨hconsistent, hfinder, hfar⟩ := (hc.absorb portion).deliver (Nat.sub_le _ m.lag) sink
  have hlen := hconsistent.held_length
  have hstart := hfar h
  rw [hfinder] at hlen
  show ((m.absorb portion).1.deliver sink _).masker.held.toList.length ≤ m.lag
  omega

/-! ## Runs -/

@[simp] theorem afterAll_nil (m : Masker) (sink : Sink) : m.afterAll sink [] = (m, sink) := rfl

@[simp] theorem afterAll_cons (m : Masker) (sink : Sink) (portion : Bytes) (rest : List Bytes) :
    m.afterAll sink (portion :: rest) =
      (m.write sink portion).masker.afterAll (m.write sink portion).sink rest := by
  rw [afterAll, deliveries, List.getLast?_cons, afterAll]
  cases ((m.write sink portion).masker.deliveries (m.write sink portion).sink rest).getLast? with
  | none => rfl
  | some d => rfl

theorem Consistent.afterAll {m : Masker} (hc : m.Consistent m.held) (sink : Sink)
    (portions : List Bytes) :
    (m.afterAll sink portions).1.Consistent (m.afterAll sink portions).1.held := by
  induction portions generalizing m sink with
  | nil => exact hc
  | cons portion rest ih =>
      rw [afterAll_cons]
      exact ih (hc.write sink portion) _

theorem afterAll_lag (m : Masker) (hc : m.Consistent m.held) (sink : Sink)
    (portions : List Bytes) : (m.afterAll sink portions).1.lag = m.lag := by
  induction portions generalizing m sink with
  | nil => rfl
  | cons portion rest ih =>
      have hfinder := ((hc.absorb portion).deliver (Nat.sub_le _ m.lag) sink).2.1
      rw [afterAll_cons, ih _ (hc.write sink portion), ← absorb_lag m portion, write_eq, lag, lag]
      exact congrArg (fun f : Finder => f.longest - 1) hfinder

end Masker

/-! ## Acts in bounds -/

/-- The act deals with bytes from `base` up to `consumed`, and with at least one; a range is
hidden from its first byte on. -/
def Act.InBounds (base consumed : Nat) : Act → Prop
  | .copy start stop => base ≤ start ∧ start < stop ∧ stop ≤ consumed
  | .hide reached range _ =>
    reached = range.start ∧ base ≤ range.start ∧ range.start < range.stop ∧ range.stop ≤ consumed

theorem Act.InBounds.mono {base base' consumed : Nat} (h : base ≤ base') {act : Act}
    (hact : act.InBounds base' consumed) : act.InBounds base consumed := by
  cases act with
  | copy => exact ⟨Nat.le_trans h hact.1, hact.2⟩
  | hide => exact ⟨hact.1, Nat.le_trans h hact.2.1, hact.2.2⟩

namespace Masker

/-- However far the masker is to deliver, the acts that it carries out (`deliver_eq`) are few, and
all are in bounds. -/
def ActsInBounds (m : Masker) : Prop :=
  ∀ upto ≤ m.finder.consumed, (m.acts upto).length ≤ 2 * m.cover.toList.length + 1 ∧
    ∀ act ∈ m.acts upto, act.InBounds m.held.start m.finder.consumed

theorem Deals.inBounds {m m' : Masker} {left left' : Held} {acts : List Act}
    (h : Deals m left acts m' left') :
    ∀ act ∈ acts, act.InBounds left.start (left.start + left.toList.length) := by
  induction h with
  | done => simp
  | copy hstart hlt hle hclear _ ih =>
      rw [Held.stop_splitAt (by omega) hle, Held.start_splitAt_of_le (by omega)] at ih
      exact List.forall_mem_cons.mpr ⟨⟨Nat.le_of_eq hstart.symm, hlt, hle⟩,
        fun act hact => (ih act hact).mono (by omega)⟩
  | hide hfront hstart hlt hle _ _ ih =>
      rw [Held.stop_splitAt (by omega) hle, Held.start_splitAt_of_le (by omega)] at ih
      exact List.forall_mem_cons.mpr ⟨⟨rfl, Nat.le_of_eq hstart.symm, hlt, hle⟩,
        fun act hact => (ih act hact).mono (by omega)⟩

theorem Consistent.actsInBounds {m : Masker} (hc : m.Consistent m.held) : m.ActsInBounds := by
  intro upto hupto
  obtain ⟨m', left', hdeals, -⟩ := reaches_acts hc hupto
  have hbounds := hdeals.inBounds
  rw [hc.held_length] at hbounds
  exact ⟨length_plan_le .., hbounds⟩

end Masker

/-- Whatever portions come and whatever the sink refuses, what a masker holds reaches up to the
last byte read, its ranges lie apart and in order among those bytes, and no act that it can be
made to plan leaves them. After a portion that was not refused it holds no more than the lag. -/
theorem every_run_consistent {patterns : List Bytes} (h : [] ∉ patterns) :
    ∃ fresh, Finder.ofPatterns patterns = .ok fresh ∧
      ∀ (fed marker : Bytes) (sink : Sink) (portions : List Bytes),
        let m := ((Masker.start (fresh.feed fed).1 marker).afterAll sink portions).1
        m.Consistent m.held ∧ m.ActsInBounds ∧
          ∀ (sink' : Sink) (portion : Bytes),
            (m.absorb portion).1.Consistent (m.absorb portion).1.held ∧
            (m.absorb portion).1.ActsInBounds ∧
            ((m.write sink' portion).error = none →
              (m.write sink' portion).masker.held.toList.length ≤ max fresh.longest 1 - 1) := by
  let fresh := Finder.fresh patterns
  refine ⟨fresh, Finder.ofPatterns_eq_ok_iff.mpr ⟨h, rfl⟩, fun fed marker sink portions => ?_⟩
  have hstart := Masker.consistent_start ((Finder.sound_fresh h).feed fed) marker
  have hc := hstart.afterAll sink portions
  have hlag : _ = fresh.longest - 1 := (Masker.afterAll_lag _ hstart sink portions).trans
    (congrArg (· - 1) (Finder.feed_longest fresh fed))
  refine ⟨hc, hc.actsInBounds, fun sink' portion => ⟨hc.absorb portion,
    (hc.absorb portion).actsInBounds, fun hnone => ?_⟩⟩
  have hlen := hc.length_held_write hnone
  rw [hlag] at hlen
  exact Nat.le_trans hlen (Nat.sub_le_sub_right (Nat.le_max_left ..) 1)

/-- The sink refuses the marker for a range that is known by then, and takes the next portion. -/
theorem every_run_consistent_refused :
    ∃ fresh, Finder.ofPatterns [[97, 97, 98], [98, 97]] = .ok fresh ∧
      let m := ((Masker.start fresh [35]).afterAll { refused := [0] } [[97, 97, 98, 97, 99]]).1
      m.cover.toList = [⟨0, 4⟩] ∧ m.Consistent m.held ∧
        (m.write {} [99, 100]).masker.held.toList.length ≤ 2 := by
  have hne : ([] : Bytes) ∉ ([[97, 97, 98], [98, 97]] : List Bytes) := by decide
  obtain ⟨fresh, hfresh, hrun⟩ := every_run_consistent hne
  obtain rfl := (Finder.ofPatterns_eq_ok_iff.mp hfresh).2
  obtain ⟨hconsistent, -, hnext⟩ := hrun [] [35] { refused := [0] } [[97, 97, 98, 97, 99]]
  obtain ⟨-, -, hlen⟩ := hnext {} [99, 100]
  exact ⟨_, hfresh, by decide +kernel, hconsistent, hlen (by decide +kernel)⟩

end Redaction
