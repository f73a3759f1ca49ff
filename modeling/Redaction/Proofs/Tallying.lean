import Mathlib.Data.Nat.Count
import Redaction.Proofs.Agreement
import Redaction.Proofs.Hiding
import Redaction.Proofs.Runs
import Redaction.Proofs.Spelling

/-!
# What a tally counts

A masker counts the bytes of a range when it hides it. So what it has counted is the number of
covered offsets in front of the bytes that it holds (`Masker.Tallied`), and when it has finished
it has counted all of them (`Masker.Faithful.hiddenBytes_finish`).

A pass takes its tally before it hands the held bytes on. Covered offsets among those are hidden
all the same, but no tally has them. Which they are depends on how the stream is divided: bytes
are let go up to `longest - 1` bytes before the end of what has been read, and beyond that to the
end of a run of covered offsets that has been begun by then (`dealtTo`). How far all portions get
is `Finder.dealtWithAll`, which knows of hits only, not of ranges or of a sink
(`Masker.Faithful.start_write`).

Spans of a single pattern do not overlap, and the last byte of one is never further from its first
than the masker lags behind. So no covered offset is held when the tally is taken, and it is right
(`Finder.Drained`). Two patterns are enough to make it wrong.
-/

namespace Redaction

/-! ## Counting offsets -/

section

variable {hidden : Nat → Prop} [DecidablePred hidden] {pos stop : Nat}

theorem count_of_forall_not (hle : pos ≤ stop) (h : ∀ o, pos ≤ o → o < stop → ¬hidden o) :
    Nat.count hidden stop = Nat.count hidden pos := by
  obtain ⟨n, rfl⟩ := Nat.exists_eq_add_of_le hle
  have hnone : Nat.count (fun k => hidden (pos + k)) n = 0 :=
    Nat.count_of_forall_not fun k hk => h _ (Nat.le_add_right ..) (Nat.add_lt_add_left hk pos)
  rw [Nat.count_add, hnone, Nat.add_zero]

theorem count_of_forall (hle : pos ≤ stop) (h : ∀ o, pos ≤ o → o < stop → hidden o) :
    Nat.count hidden stop = Nat.count hidden pos + (stop - pos) := by
  obtain ⟨n, rfl⟩ := Nat.exists_eq_add_of_le hle
  have hall : Nat.count (fun k => hidden (pos + k)) n = n :=
    Nat.count_of_forall fun k hk => h _ (Nat.le_add_right ..) (Nat.add_lt_add_left hk pos)
  rw [Nat.count_add, hall, Nat.add_sub_cancel_left]

/-- Up to two offsets as many are hidden just when none is from the first on. -/
theorem count_eq_iff (hle : pos ≤ stop) (hstop : ∀ o, hidden o → o < stop) :
    Nat.count hidden pos = Nat.count hidden stop ↔ ∀ o, hidden o → o < pos := by
  constructor
  · intro heq o ho
    refine Nat.lt_of_not_le fun hge => ?_
    have hmore := Nat.count_strict_mono ho (hstop o ho)
    have hbefore := Nat.count_monotone hidden hge
    omega
  · intro hall
    refine (count_of_forall_not hle fun o hge _ ho => ?_).symm
    exact absurd (hall o ho) (Nat.not_lt.mpr hge)

end

/-! ## How far a stream is dealt with -/

section

/-- The first offset from `pos` on that is not hidden, or the one `n` further on. -/
def runEnd (hidden : Nat → Prop) [DecidablePred hidden] : (pos n : Nat) → Nat
  | pos, 0 => pos
  | pos, n + 1 => if hidden pos then runEnd hidden (pos + 1) n else pos

/-- Where a stream of `stop` offsets has been dealt with to when what was left from `pos` on is let
go up to `upto`. A run of hidden offsets that has been begun is gone through to its end. -/
def dealtTo (hidden : Nat → Prop) [DecidablePred hidden] (pos upto stop : Nat) : Nat :=
  if upto ≤ pos then pos else max upto (runEnd hidden (upto - 1) (stop - (upto - 1)))

variable {hidden : Nat → Prop} [DecidablePred hidden] {pos upto stop n e o : Nat}

theorem le_runEnd (hend : e ≤ pos + n) (hall : ∀ o, pos ≤ o → o < e → hidden o) :
    e ≤ runEnd hidden pos n := by
  induction n generalizing pos with
  | zero => exact hend
  | succ n ih =>
      rw [runEnd]
      split
      · exact ih (by omega) fun o ho => hall o (by omega)
      · rename_i hnot
        refine Nat.le_of_not_lt fun hlt => ?_
        exact hnot (hall pos (Nat.le_refl pos) hlt)

theorem hidden_of_lt_runEnd (hge : pos ≤ o) (hlt : o < runEnd hidden pos n) : hidden o := by
  induction n generalizing pos with
  | zero => exact absurd hlt (Nat.not_lt.mpr hge)
  | succ n ih =>
      rw [runEnd] at hlt
      split at hlt
      · rename_i hpos
        rcases Nat.eq_or_lt_of_le hge with rfl | hgt
        · exact hpos
        · exact ih hgt hlt
      · exact absurd hlt (Nat.not_lt.mpr hge)

theorem runEnd_eq (hle : pos ≤ e) (hend : e ≤ pos + n)
    (hall : ∀ o, pos ≤ o → o < e → hidden o) (hnot : ¬hidden e) : runEnd hidden pos n = e := by
  refine Nat.le_antisymm (Nat.le_of_not_lt fun hlt => ?_) (le_runEnd hend hall)
  exact hnot (hidden_of_lt_runEnd hle hlt)

theorem dealtTo_of_le (h : upto ≤ pos) : dealtTo hidden pos upto stop = pos := if_pos h

theorem upto_le_dealtTo : upto ≤ dealtTo hidden pos upto stop := by
  rw [dealtTo]
  split
  · assumption
  · exact Nat.le_max_left ..

theorem dealtTo_eq (hlt : pos < upto) (hle : upto ≤ e) (hstop : e ≤ stop)
    (hover : ∀ o, upto ≤ o → o < e → hidden o) (hbegun : upto < e → hidden (upto - 1))
    (hends : ¬(hidden (e - 1) ∧ hidden e)) : dealtTo hidden pos upto stop = e := by
  rw [dealtTo, if_neg (Nat.not_le.mpr hlt)]
  by_cases hhere : hidden (upto - 1)
  · have hall : ∀ o, upto - 1 ≤ o → o < e → hidden o := by
      intro o ho hoe
      rcases Nat.eq_or_lt_of_le ho with rfl | ho
      · exact hhere
      · exact hover o (by omega) hoe
    rw [runEnd_eq (by omega) (by omega) hall fun he => hends ⟨hall _ (by omega) (by omega), he⟩]
    exact Nat.max_eq_right hle
  · obtain rfl : upto = e := by
      rcases Nat.eq_or_lt_of_le hle with heq | hbefore
      · exact heq
      · exact absurd (hbegun hbefore) hhere
    rw [runEnd_eq (Nat.le_refl _) (Nat.le_add_right ..) (fun o ho hlt => by omega) hhere]
    exact Nat.max_eq_left (Nat.sub_le ..)

/-- A run of hidden offsets that has been begun is dealt with. -/
theorem le_dealtTo (hlt : pos < upto) (hstop : e ≤ stop)
    (hall : ∀ o, upto - 1 ≤ o → o < e → hidden o) : e ≤ dealtTo hidden pos upto stop := by
  rw [dealtTo, if_neg (Nat.not_le.mpr hlt)]
  exact Nat.le_trans (le_runEnd (by omega) hall) (Nat.le_max_right ..)

/-- Nothing is dealt with beyond the offset but what is hidden. -/
theorem hidden_of_lt_dealtTo (hlt : pos < upto) (hge : upto ≤ o)
    (ho : o < dealtTo hidden pos upto stop) : hidden o := by
  rw [dealtTo, if_neg (Nat.not_le.mpr hlt), lt_max_iff] at ho
  exact hidden_of_lt_runEnd (by omega) (ho.resolve_left (Nat.not_lt.mpr hge))

end

namespace Finder

/-- Where the stream, of which what lies in front of `pos` was dealt with earlier, has been dealt
with to when all of it has been read. -/
def dealtWith (f : Finder) (stream : Bytes) (pos : Nat) : Nat :=
  let stop := f.consumed + stream.length
  dealtTo (f.Covers stream) pos (stop - (f.longest - 1)) stop

/-- The same when one portion after another follows the stream. -/
def dealtWithAll (f : Finder) : (stream : Bytes) → (pos : Nat) → List Bytes → Nat
  | _, pos, [] => pos
  | stream, pos, portion :: rest =>
    f.dealtWithAll (stream ++ portion) (f.dealtWith (stream ++ portion) pos) rest

/-- Nothing is held back that no later byte can reach. -/
theorem le_dealtWithAll {f : Finder} {stream : Bytes} {pos : Nat}
    (h : f.consumed + stream.length - (f.longest - 1) ≤ pos) (portions : List Bytes) :
    f.consumed + (stream ++ portions.flatten).length - (f.longest - 1) ≤
      f.dealtWithAll stream pos portions := by
  induction portions generalizing stream pos with
  | nil =>
      rw [List.flatten_nil, List.append_nil]
      exact h
  | cons portion rest ih =>
      rw [List.flatten_cons, ← List.append_assoc]
      exact ih upto_le_dealtTo

end Finder

/-! ## Where a delivery ends -/

/-- Of two offsets side by side that are covered, one range holds both. -/
theorem Cover.Canonical.covers_succ {base o : Nat} {c : Cover} (hc : c.Canonical base)
    (h : c.Covers o) (hsucc : c.Covers (o + 1)) :
    ∃ r ∈ c.toList, r.start ≤ o ∧ o + 1 < r.stop := by
  obtain ⟨a, ha, hale, halt⟩ := h
  obtain ⟨b, hb, hble, hblt⟩ := hsucc
  rcases hc.apart ha hb with rfl | hbefore | hbehind
  · exact ⟨a, ha, hale, hblt⟩
  · omega
  · omega

/-- A range that a plan hides begins in front of the offset that it was made for. -/
theorem start_lt_of_mem_plan {upto pos reached : Nat} {hiddenTo : Option Nat} {ranges : List Range}
    {r : Range} {marked : Bool} (h : Act.hide reached r marked ∈ plan upto pos hiddenTo ranges) :
    r.start < upto := by
  induction ranges generalizing pos hiddenTo with
  | nil =>
      rw [plan] at h
      split at h
      · simp at h
      · cases h
  | cons x rest ih =>
      rw [plan] at h
      split at h
      · cases h
      · split at h
        · rcases List.mem_cons.mp h with heq | h
          · cases heq
            omega
          · exact ih h
        · split at h
          · rcases List.mem_cons.mp h with heq | h
            · cases heq
            · rcases List.mem_cons.mp h with heq | h
              · cases heq
                assumption
              · exact ih h
          · simp at h

theorem plan_of_le {upto pos : Nat} (h : upto ≤ pos) (hiddenTo : Option Nat)
    (ranges : List Range) : plan upto pos hiddenTo ranges = [] := by
  cases ranges with
  | nil => exact if_neg (Nat.not_lt.mpr h)
  | cons r rest => exact if_pos h

namespace Masker

section

variable {m m' : Masker} {left left' : Held} {acts : List Act}

/-- No range is hidden in part. -/
theorem Deals.range_whole (h : Deals m left acts m' left') (hc : m.Consistent left) {r : Range}
    (hr : r ∈ m.cover.toList) : r.stop ≤ left'.start ∨ left'.start ≤ r.start := by
  induction h with
  | done => exact .inr (hc.canonical.1 r hr).1
  | copy hstart hlt hle hclear _ ih => exact ih (hc.copy (hstart ▸ hlt) hle hclear) hr
  | hide hfront hstart hlt hle _ htail ih =>
      rw [Cover.toList_of_front hfront] at hr
      rcases List.mem_cons.mp hr with rfl | hr
      · obtain ⟨-, -, -, hfar⟩ := htail.frame
        rw [Held.start_splitAt_of_le (by omega)] at hfar
        exact .inl hfar
      · exact ih (hc.hide hfront hstart hlt hle _) hr

/-- Nor is a run of covered offsets. -/
theorem Deals.not_covers (h : Deals m left acts m' left') (hc : m.Consistent left)
    (hlt : left.start < left'.start) :
    ¬(m.cover.Covers (left'.start - 1) ∧ m.cover.Covers left'.start) := by
  rintro ⟨hbefore, hbehind⟩
  have hsucc : left'.start - 1 + 1 = left'.start := by omega
  rw [← hsucc] at hbehind
  obtain ⟨r, hr, hle, hgt⟩ := hc.canonical.covers_succ hbefore hbehind
  have := h.range_whole hc hr
  omega

/-- What a plan hides at the offset that it was made for, it has begun to hide in front of it. -/
theorem Deals.begun {upto pos : Nat} {hiddenTo : Option Nat} {ranges : List Range}
    (h : Deals m left (plan upto pos hiddenTo ranges) m' left') (hc : m.Consistent left)
    (hcov : m.cover.Covers upto) (hlt : upto < left'.start) : m.cover.Covers (upto - 1) := by
  obtain ⟨act, hact, hhides⟩ := (h.hides_iff hc).mpr ⟨hcov, hlt⟩
  cases act with
  | copy => exact absurd hhides id
  | hide reached r marked =>
      have hstart := start_lt_of_mem_plan hact
      have hhides : (Act.hide reached r marked).Hides (upto - 1) :=
        ⟨Nat.le_sub_one_of_lt hstart, Nat.lt_of_le_of_lt (Nat.sub_le ..) hhides.2⟩
      exact ((h.hides_iff hc).mp ⟨_, hact, hhides⟩).1

end

section

variable {f : Finder} {marker stream out : Bytes} {m m' : Masker} {left left' : Held}

theorem Faithful.start_deliver (hf : Faithful f marker stream out m m.held) {upto : Nat}
    (hupto : upto ≤ m.finder.consumed) {sink : Sink} (hnone : (m.deliver sink upto).error = none) :
    (m.deliver sink upto).masker.held.start =
      dealtTo (f.Covers stream) m.held.start upto m.finder.consumed := by
  have hrefilled := hf.refill upto
  have hc := hrefilled.toConsistent
  obtain ⟨m', left', hdeals, hfar, hover⟩ := reaches_acts hf.toConsistent hupto
  have hheld : (m.deliver sink upto).masker.held = left' := by
    rw [deliver_eq] at hnone ⊢
    rcases carryOut_cases hdeals sink with ⟨-, -, hmasker⟩ | ⟨hsome, -⟩
    · rw [hmasker]
    · exact absurd hnone hsome
  rw [hheld]
  rcases Nat.lt_or_ge m.held.start upto with hlt | hge
  · have hlen : left'.start + left'.toList.length = m.finder.consumed :=
      (hc.deals hdeals).held_length.trans (congrArg Finder.consumed hdeals.frame.1)
    have hhidden : ∀ o, m.held.start ≤ o → ((m.cover.refill upto).Covers o ↔ f.Covers stream o) :=
      hrefilled.covers_iff
    refine (dealtTo_eq hlt hfar (by omega) (fun o ho hbefore => ?_) (fun hbefore => ?_) ?_).symm
    · exact (hhidden o (by omega)).mp (hover o (by omega) ho hbefore)
    · have hcov := hover upto (Nat.le_of_lt hlt) (Nat.le_refl upto) hbefore
      exact (hhidden _ (by omega)).mp (hdeals.begun hc hcov hbefore)
    · rw [← hhidden _ (by omega), ← hhidden _ (by omega)]
      exact hdeals.not_covers hc (by omega)
  · rw [acts, plan_of_le hge] at hdeals
    cases hdeals
    exact (dealtTo_of_le hge).symm

theorem Faithful.start_write (hf : Faithful f marker stream out m m.held) (hsound : f.Sound)
    (hs : f.Settled stream m.held.start) {sink : Sink} {portion : Bytes}
    (hnone : (m.write sink portion).error = none) :
    (m.write sink portion).masker.held.start = f.dealtWith (stream ++ portion) m.held.start := by
  have habsorbed := hf.absorb hsound hs portion
  have hread : (m.absorb portion).1.finder.consumed = f.consumed + (stream ++ portion).length := by
    rw [habsorbed.finder_eq, Finder.feed_consumed]
  have hlag : m.lag = f.longest - 1 := by
    rw [lag, hf.finder_eq, Finder.feed_longest]
  rw [write_eq] at hnone ⊢
  refine (habsorbed.start_deliver (Nat.sub_le _ m.lag) hnone).trans ?_
  rw [hread, hlag]
  rfl

/-! ## What has been counted -/

/-- The masker has counted the covered offsets in front of what is left. -/
def Tallied (f : Finder) (stream : Bytes) (m : Masker) (left : Held) : Prop :=
  m.hiddenBytes = Nat.count (f.Covers stream) left.start

theorem Faithful.tallied_deals {acts : List Act} (h : Deals m left acts m' left')
    (hf : Faithful f marker stream out m left) (ht : Tallied f stream m left) :
    Tallied f stream m' left' := by
  induction h generalizing out with
  | done => exact ht
  | @copy m _ left _ start stop acts hstart hlt hle hclear _ ih =>
      have hlt : left.start < stop := hstart ▸ hlt
      have hcount := count_of_forall_not (Nat.le_of_lt hlt) fun o => hf.not_covers hclear
      refine ih (hf.copy hlt hle hclear) ?_
      rw [Tallied, Held.start_splitAt_of_le (Nat.le_of_lt hlt), hcount]
      exact ht
  | @hide m _ left _ r rest marked acts hfront hstart hlt hle hmarked _ ih =>
      have hle' : left.start ≤ r.stop := by omega
      have hcount := count_of_forall hle' fun o => hf.covers_front hfront hstart
      refine ih (hf.hide hfront hstart hlt hle hmarked) ?_
      rw [Tallied, Held.start_splitAt_of_le hle', hcount]
      show m.hiddenBytes + (r.stop - r.start) = _
      rw [ht, hstart]

theorem Faithful.tallied_deliver (hf : Faithful f marker stream out m m.held)
    (ht : Tallied f stream m m.held) {upto : Nat} (hupto : upto ≤ m.finder.consumed) {sink : Sink}
    (hnone : (m.deliver sink upto).error = none) :
    Tallied f stream (m.deliver sink upto).masker (m.deliver sink upto).masker.held := by
  obtain ⟨m', left', hdeals, ⟨-, -, hmasker, -⟩ | ⟨hsome, -⟩⟩ :=
    deliver_cases hf.toConsistent hupto sink
  · have htallied := (hf.refill upto).tallied_deals hdeals ht
    rw [hmasker]
    exact htallied
  · exact absurd hnone hsome

/-- What has been counted is settled, so later bytes do not change its number. -/
theorem Tallied.absorb (ht : Tallied f stream m m.held) (hsound : f.Sound)
    (hs : f.Settled stream m.held.start) (portion : Bytes) :
    Tallied f (stream ++ portion) (m.absorb portion).1 (m.absorb portion).1.held := by
  have hsame : Nat.count (f.Covers stream) m.held.start =
      Nat.count (f.Covers (stream ++ portion)) m.held.start :=
    Nat.le_antisymm (Nat.count_mono_left fun _ ho => (hs.covers_iff hsound portion ho).mpr)
      (Nat.count_mono_left fun _ ho => (hs.covers_iff hsound portion ho).mp)
  exact ht.trans hsame

theorem Faithful.tallied_write (hf : Faithful f marker stream out m m.held) (hsound : f.Sound)
    (hs : f.Settled stream m.held.start) (ht : Tallied f stream m m.held) {sink : Sink}
    {portion : Bytes} (hnone : (m.write sink portion).error = none) :
    Tallied f (stream ++ portion) (m.write sink portion).masker
      (m.write sink portion).masker.held := by
  have habsorbed := hf.absorb hsound hs portion
  rw [write_eq] at hnone ⊢
  exact habsorbed.tallied_deliver (ht.absorb hsound hs portion) (Nat.sub_le _ m.lag) hnone

/-- At the end all covered offsets have been counted. -/
theorem Faithful.hiddenBytes_finish (hf : Faithful f marker stream out m m.held)
    (ht : Tallied f stream m m.held) {sink : Sink} (hnone : (m.finish sink).error = none) :
    (m.finish sink).masker.hiddenBytes =
      Nat.count (f.Covers stream) (f.consumed + stream.length) := by
  rw [Masker.finish] at hnone ⊢
  cases herr : (m.deliver sink m.finder.consumed).error with
  | some e => simp [herr] at hnone
  | none =>
      have htallied := hf.tallied_deliver ht (Nat.le_refl _) herr
      obtain ⟨hconsistent, hfinder, hfar⟩ := hf.toConsistent.deliver (Nat.le_refl _) sink
      have hlen := hconsistent.held_length
      have hle := hfar herr
      rw [hfinder] at hlen
      have hread : m.finder.consumed = f.consumed + stream.length := by
        rw [hf.finder_eq, Finder.feed_consumed]
      have hend : (m.deliver sink m.finder.consumed).masker.held.start =
          f.consumed + stream.length := by omega
      rw [Tallied, hend] at htallied
      exact htallied

/-! ## Runs -/

theorem tallied_start : Tallied f [] (start f marker) (start f marker).held :=
  (Nat.count_of_forall_not fun _ _ => Finder.not_covers_nil).symm

theorem Faithful.tallied_writeAll (hf : Faithful f marker stream out m m.held) (hsound : f.Sound)
    (hs : f.Settled stream m.held.start) (ht : Tallied f stream m m.held) {sink : Sink}
    {portions : List Bytes} (hnone : (m.writeAll sink portions).error = none) :
    Tallied f (stream ++ portions.flatten) (m.writeAll sink portions).masker
        (m.writeAll sink portions).masker.held ∧
      (m.writeAll sink portions).masker.held.start =
        f.dealtWithAll stream m.held.start portions := by
  induction portions generalizing m sink stream out with
  | nil =>
      rw [List.flatten_nil, List.append_nil]
      exact ⟨ht, rfl⟩
  | cons portion rest ih =>
      obtain ⟨piece, -, hdone, -⟩ := hf.write hsound hs sink portion
      rw [Masker.writeAll] at hnone ⊢
      cases herr : (m.write sink portion).error with
      | some e => simp [herr] at hnone
      | none =>
          obtain ⟨hfaithful, hsettled⟩ := hdone herr
          simp only [herr] at hnone ⊢
          rw [Finder.dealtWithAll, ← hf.start_write hsound hs herr, List.flatten_cons,
            ← List.append_assoc]
          exact ih hfaithful hsettled (hf.tallied_write hsound hs ht herr) hnone

end

end Masker

/-! ## A single pattern -/

namespace Finder

section

variable {f : Finder} {stream : Bytes} {pos o : Nat}

/-- All patterns are the same, and none of them has been begun. -/
def Single (f : Finder) : Prop := ∀ t ∈ f.trackers, t.cursor = 0 ∧ ∀ u ∈ f.trackers, u = t

theorem single_fresh {patterns : List Bytes} (h : ∀ p ∈ patterns, ∀ q ∈ patterns, p = q) :
    (fresh patterns).Single := by
  intro t ht
  obtain ⟨p, hp, rfl⟩ := List.mem_map.mp ht
  refine ⟨rfl, fun u hu => ?_⟩
  obtain ⟨q, hq, rfl⟩ := List.mem_map.mp hu
  rw [h p hp q hq]

/-- A covered offset lies in a span that is as long as any, and all of it has been read. -/
theorem Single.of_covers (hone : f.Single) (h : f.Covers stream o) :
    ∃ t ∈ f.trackers, ∃ i ∈ t.hits stream, o ≤ f.consumed + i ∧ f.consumed + i < o + f.longest ∧
      t.pattern.length = f.longest ∧ f.longest ≤ i + 1 ∧ i < stream.length := by
  obtain ⟨-, t, ht, i, hi, hle, hlt⟩ := h
  have hlong := length_le_longest ht
  have hshort : f.longest ≤ t.pattern.length :=
    foldl_max_le.mpr ⟨Nat.zero_le _, fun u hu => Nat.le_of_eq (by rw [(hone t ht).2 u hu])⟩
  have hlen := Tracker.length_le_of_mem_hits hi
  have hend := Tracker.lt_length_of_mem_hits hi
  rw [(hone t ht).1] at hlen
  exact ⟨t, ht, i, hi, hle, by omega, by omega, by omega, hend⟩

/-- All that is covered has been dealt with. The stream was dealt with to `pos` because nothing is
to be dealt with yet, because the rest is held back, or because a run of covered offsets ends
there. -/
structure Drained (f : Finder) (stream : Bytes) (pos : Nat) : Prop where
  lt : ∀ o, f.Covers stream o → o < pos
  origin : pos = f.consumed ∨ pos + (f.longest - 1) ≤ f.consumed + stream.length ∨
    f.Covers stream (pos - 1)

theorem drained_nil (f : Finder) : f.Drained [] f.consumed :=
  ⟨fun _ hcov => absurd hcov not_covers_nil, .inl rfl⟩

theorem Drained.lt_dealtWith (hd : f.Drained stream pos) (hone : f.Single) (portion : Bytes)
    (hcov : f.Covers (stream ++ portion) o) : o < f.dealtWith (stream ++ portion) pos := by
  have hstop : (stream ++ portion).length = stream.length + portion.length := List.length_append
  let upto := f.consumed + (stream ++ portion).length - (f.longest - 1)
  refine Nat.lt_of_not_le fun hge => ?_
  have hupto : upto ≤ o := Nat.le_trans upto_le_dealtTo hge
  -- The span that the offset lies in begins in front of `upto`.
  obtain ⟨t, ht, i, hi, hle, hlt, hlen, hlong, hend⟩ := hone.of_covers hcov
  rcases Nat.lt_or_ge pos upto with hahead | hdone
  · have hall : ∀ x, upto - 1 ≤ x → x < f.consumed + i + 1 → f.Covers (stream ++ portion) x :=
      fun x hx hxi => ⟨by omega, t, ht, i, hi, by omega, by omega⟩
    have hthrough : f.consumed + i + 1 ≤ f.dealtWith (stream ++ portion) pos :=
      le_dealtTo hahead (by omega) hall
    omega
  · rw [Finder.dealtWith, dealtTo_of_le hdone] at hge
    rcases hd.origin with hnothing | hheld | hrun
    · omega
    · -- Nothing has come since then.
      obtain rfl : portion = [] := List.eq_nil_of_length_eq_zero (by omega)
      rw [List.append_nil] at hcov
      exact absurd (hd.lt o hcov) (Nat.not_lt.mpr hge)
    · -- The run ends with a span, and the next one does not overlap that.
      obtain ⟨u, hu, j, hj, hule, hult, -⟩ := hone.of_covers hrun
      obtain rfl := (hone t ht).2 u hu
      have hlast := hd.lt (f.consumed + j)
        ⟨Nat.le_add_right .., u, hu, j, hj, Nat.le_refl _, by omega⟩
      have hapart := Tracker.le_of_mem_hits (Tracker.mem_hits_append.mpr (.inl hj)) hi (by omega)
      omega

theorem Drained.dealtWith (hd : f.Drained stream pos) (hf : f.Sound) (hone : f.Single)
    (portion : Bytes) : f.Drained (stream ++ portion) (f.dealtWith (stream ++ portion) pos) := by
  refine ⟨fun o hcov => hd.lt_dealtWith hone portion hcov, ?_⟩
  have hstop : (stream ++ portion).length = stream.length + portion.length := List.length_append
  let upto := f.consumed + (stream ++ portion).length - (f.longest - 1)
  rcases Nat.lt_or_ge pos upto with hahead | hdone
  · have hle : upto ≤ f.dealtWith (stream ++ portion) pos := upto_le_dealtTo
    rcases Nat.eq_or_lt_of_le hle with heq | hlt
    · exact .inr (.inl (by omega))
    · exact .inr (.inr (hidden_of_lt_dealtTo hahead (Nat.le_sub_one_of_lt hlt)
        (Nat.sub_one_lt_of_lt hlt)))
  · rw [Finder.dealtWith, dealtTo_of_le hdone]
    rcases hd.origin with hnothing | hheld | hrun
    · exact .inl hnothing
    · exact .inr (.inl (by omega))
    · exact .inr (.inr (hrun.append hf portion))

/-- However a stream is divided, no covered offset is held at the end. -/
theorem Drained.dealtWithAll (hd : f.Drained stream pos) (hf : f.Sound) (hone : f.Single)
    (portions : List Bytes) :
    f.Drained (stream ++ portions.flatten) (f.dealtWithAll stream pos portions) := by
  induction portions generalizing stream pos with
  | nil =>
      rw [List.flatten_nil, List.append_nil]
      exact hd
  | cons portion rest ih =>
      rw [List.flatten_cons, ← List.append_assoc]
      exact ih (hd.dealtWith hf hone portion)

end

end Finder

/-! ## The tally of a pass -/

namespace Pass

variable {settings : Settings} {f : Finder} {sink : Sink} {pieces : List Piece}

/-- The tally has what was counted when the last portion had been handed over. -/
theorem hiddenBytes_of_succeeded (hf : f.Sound)
    (h : (mask settings f sink pieces).succeeded = true) :
    let reading := Reading.ofPieces settings.readSize pieces
    let t := transcript settings f sink pieces
    let dealtWith := f.dealtWithAll [] f.consumed reading.portions
    dealtWith ≤ f.consumed + reading.bytes.length ∧
      t.masker.hiddenBytes = Nat.count (f.Covers reading.bytes) dealtWith ∧
      (t.masker.finish t.sink).masker.hiddenBytes =
        Nat.count (f.Covers reading.bytes) (f.consumed + reading.bytes.length) := by
  intro reading t dealtWith
  obtain ⟨-, hnot, -⟩ | ⟨-, hok, -, hnone, -⟩ := mask_cases (rfl : mask settings f sink pieces = _)
  · cases h.symm.trans hnot
  · have hfaithful := faithful_transcript hf hnone
    obtain ⟨htallied, hstart⟩ := (Masker.faithful_start hf _).tallied_writeAll hf
      Masker.settled_start Masker.tallied_start hnone
    have hstart : t.masker.held.start = dealtWith := hstart
    rw [← hstart]
    exact ⟨hfaithful.start_le, htallied, hfaithful.hiddenBytes_finish htallied (hok.mp h)⟩

end Pass

/-- What the tally of a pass says is hidden, beside what is. The output has a marker for each run
of covered offsets, and the masker has counted all of these when it has finished. The tally is
taken before that: it has the covered offsets up to where the portions were dealt with to, which
can miss some of the last `longest - 1` bytes and no others. It is right just when none is covered
behind, which is so for a single pattern, and not for two in general. -/
theorem hidden_bytes_tallied {patterns : List Bytes} (h : [] ∉ patterns) :
    ∃ fresh, Finder.ofPatterns patterns = .ok fresh ∧
      ∀ (settings : Settings) (sink : Sink) (pieces : List Piece),
        let pass := Pass.mask settings fresh sink pieces
        let reading := Reading.ofPieces settings.readSize pieces
        let t := Pass.transcript settings fresh sink pieces
        let hidden := fresh.Covers reading.bytes
        let all := Nat.count hidden reading.bytes.length
        let dealtWith := fresh.dealtWithAll [] 0 reading.portions
        (settings.readSize ≤ Reading.bufferLimit → Piece.Readable pieces → sink.Open →
          pass.succeeded = true) ∧
        (pass.succeeded = true →
          pass.out = render hidden (Bytes.ofText settings.marker) 0 reading.bytes ∧
          (t.masker.finish t.sink).masker.hiddenBytes = all ∧
          ∃ tally, pass.outcome = .ok tally ∧
            tally.hiddenBytes = Nat.count hidden dealtWith ∧
            Nat.count hidden (reading.bytes.length - (fresh.longest - 1)) ≤ tally.hiddenBytes ∧
            tally.hiddenBytes ≤ all ∧
            (tally.hiddenBytes = all ↔ ∀ o, hidden o → o < dealtWith) ∧
            ((∀ p ∈ patterns, ∀ q ∈ patterns, p = q) → tally.hiddenBytes = all)) := by
  refine ⟨Finder.fresh patterns, Finder.ofPatterns_eq_ok_iff.mpr ⟨h, rfl⟩, ?_⟩
  intro settings sink pieces pass reading t hidden all dealtWith
  have hf := Finder.sound_fresh h
  refine ⟨fun hsize hpieces hsink => ?_, fun hok => ?_⟩
  · obtain ⟨⟨hiddenBytes, htally⟩, -⟩ := Pass.mask_of_readable hf hsink hsize hpieces
    rw [Pass.succeeded, htally]
    rfl
  · obtain ⟨hle, htally, hall⟩ := Pass.hiddenBytes_of_succeeded hf hok
    have hbase : (Finder.fresh patterns).consumed + reading.bytes.length = reading.bytes.length :=
      Nat.zero_add _
    rw [hbase] at hle hall
    have hlag : _ ≤ dealtWith := Finder.le_dealtWithAll (Nat.sub_le _ _) reading.portions
    rw [List.nil_append, ← Reading.bytes, hbase] at hlag
    have hiff : t.masker.hiddenBytes = all ↔ ∀ o, hidden o → o < dealtWith := by
      rw [htally]
      exact count_eq_iff hle fun o ho => hbase ▸ ho.lt
    refine ⟨Pass.out_of_succeeded hf hok, hall, _, Pass.outcome_of_succeeded rfl hok, htally, ?_,
      ?_, hiff, fun hone => hiff.mpr ?_⟩
    · exact Nat.le_trans (Nat.count_monotone hidden hlag) (Nat.le_of_eq htally.symm)
    · exact Nat.le_trans (Nat.le_of_eq htally) (Nat.count_monotone hidden hle)
    · exact ((Finder.drained_nil _).dealtWithAll hf (Finder.single_fresh hone) reading.portions).lt

/-- The second pattern is found when the first, which it overlaps, has been handed on and only
bytes that are held back follow. Read in one portion, the same bytes are all counted. -/
theorem hidden_bytes_tallied_late_overlap :
    ∃ fresh, Finder.ofPatterns
        [[121, 122, 122, 122, 122, 122], [122, 122, 122, 98]] = .ok fresh ∧
      let pieces : List Piece := [.data [97, 97, 97, 121, 122, 122, 122, 122, 122, 98]]
      let divided := Pass.mask { portionSize := 9 } fresh {} pieces
      let whole := Pass.mask { portionSize := 10 } fresh {} pieces
      (∃ tally, divided.outcome = .ok tally ∧ tally.hiddenBytes = 6) ∧
        (∃ tally, whole.outcome = .ok tally ∧ tally.hiddenBytes = 7) ∧
        divided.out = Bytes.ofText "aaa<redacted>" ∧ whole.out = Bytes.ofText "aaa<redacted>" := by
  have hne : ([] : Bytes) ∉
      ([[121, 122, 122, 122, 122, 122], [122, 122, 122, 98]] : List Bytes) := by decide
  obtain ⟨fresh, hfresh, hrun⟩ := hidden_bytes_tallied hne
  obtain rfl := (Finder.ofPatterns_eq_ok_iff.mp hfresh).2
  let pieces : List Piece := [.data [97, 97, 97, 121, 122, 122, 122, 122, 122, 98]]
  have hreadable : Piece.Readable pieces := Piece.readable_data _
  obtain ⟨hok, hdivided⟩ := hrun { portionSize := 9 } {} pieces
  obtain ⟨hok', hwhole⟩ := hrun { portionSize := 10 } {} pieces
  obtain ⟨hout, -, tally, htally, hcount, -⟩ :=
    hdivided (hok (by decide) hreadable Sink.open_default)
  obtain ⟨hout', -, tally', htally', hcount', -⟩ :=
    hwhole (hok' (by decide) hreadable Sink.open_default)
  exact ⟨_, hfresh, ⟨tally, htally, hcount.trans (by decide +kernel)⟩,
    ⟨tally', htally', hcount'.trans (by decide +kernel)⟩,
    hout.trans (by decide +kernel), hout'.trans (by decide +kernel)⟩

/-- A pass that replaces all of its input by a marker, and whose tally has no hidden byte. -/
theorem tally_misses_hidden_bytes :
    ∃ fresh, Finder.ofPatterns [[97, 98], [119, 120, 121, 122]] = .ok fresh ∧
      let pass := Pass.mask {} fresh {} [.data [97, 98]]
      pass.outcome = .ok { bytesRead := 2, portions := 1, spans := 1, hiddenBytes := 0 } ∧
        pass.out = Bytes.ofText "<redacted>" ∧
        Nat.count (fresh.Covers [97, 98]) 2 = 2 :=
  ⟨_, Finder.ofPatterns_eq_ok_iff.mpr ⟨by decide, rfl⟩, by decide +kernel⟩

end Redaction
