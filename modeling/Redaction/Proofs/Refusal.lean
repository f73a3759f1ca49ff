import Mathlib.Data.List.Basic
import Redaction.Proofs.Masking

/-!
# Deliveries that are refused

A masker whose sink refuses keeps all the bytes that it holds, and is given the next portion
all the same. The ranges that it had hidden before the refusal are done with by then, so the
bytes of these ranges are held with nothing to say that they are to be hidden: they are lost
(`Delivery.Loses`), and come out when the masker next gets to them.

That is the only way for a covered byte to come out. Acts show what no range of the masker
covers, and hide the rest (`Masker.Deals.shows_iff`, `Masker.Deals.covers_iff`).
`Masker.Remembers` relates the ranges of a masker to the hits of all that was read: an offset
held and covered is in a range, or has been lost. Portions keep this (`Masker.Remembers.absorb`),
and so do deliveries, refused or not (`Masker.Remembers.deliver`).

The main result, `shown_iff_lost`, says which covered bytes come out of a run in which anything
may be refused, and that what is lost does come out if the masker can then finish.
-/

namespace Redaction

/-! ## What acts do to an offset -/

namespace Act

/-- The byte at the offset is handed on as it is. -/
def Shows (o : Nat) : Act → Prop
  | copy start stop => start ≤ o ∧ o < stop
  | hide .. => False

/-- The byte at the offset is left out. -/
def Hides (o : Nat) : Act → Prop
  | copy .. => False
  | hide _ range _ => range.start ≤ o ∧ o < range.stop

instance (o : Nat) : DecidablePred (Shows o)
  | copy .. => inferInstanceAs (Decidable (_ ∧ _))
  | hide .. => inferInstanceAs (Decidable False)

instance (o : Nat) : DecidablePred (Hides o)
  | copy .. => inferInstanceAs (Decidable False)
  | hide .. => inferInstanceAs (Decidable (_ ∧ _))

end Act

/-- The offset was hidden and done with, and then the sink refused: the byte is still held, and
nothing says any more that it is to be hidden. -/
def Delivery.Loses (d : Delivery) (o : Nat) : Prop := d.error ≠ none ∧ ∃ act ∈ d.done, act.Hides o

instance (d : Delivery) : DecidablePred d.Loses := fun _ => inferInstanceAs (Decidable (_ ∧ _))

namespace Cover

theorem covers_refill (c : Cover) (upto o : Nat) : (c.refill upto).Covers o ↔ c.Covers o := by
  rw [Covers, toList_refill, ← Covers]

theorem covers_of_front {c : Cover} {r : Range} {rest : List Range} (h : c.front = r :: rest)
    {o : Nat} : c.Covers o ↔ (r.start ≤ o ∧ o < r.stop) ∨ c.dropFirst.Covers o := by
  rw [Covers, toList_of_front h]
  simp [Covers]

theorem Canonical.le_of_covers {base o : Nat} {c : Cover} (hc : c.Canonical base)
    (h : c.Covers o) : base ≤ o := by
  obtain ⟨r, hr, hle, -⟩ := h
  exact Nat.le_trans (hc.1 r hr).1 hle

end Cover

namespace Masker

section

variable {m m' : Masker} {left left' : Held} {acts : List Act} {o : Nat}

/-- Of the offsets that the acts deal with, those come out that are not to be hidden. -/
theorem Deals.shows_iff (h : Deals m left acts m' left') :
    (∃ act ∈ acts, act.Shows o) ↔ left.start ≤ o ∧ o < left'.start ∧ ¬m.cover.Covers o := by
  induction h with
  | done =>
      simp only [List.not_mem_nil, false_and, exists_false, false_iff]
      omega
  | @copy m _ left _ start stop acts hstart hlt hle hclear htail ih =>
      obtain ⟨-, -, -, hfar⟩ := htail.frame
      rw [Held.start_splitAt_of_le (by omega)] at ih hfar
      have hshown : o < stop → ¬m.cover.Covers o := by
        rintro ho ⟨r, hr, hro, -⟩
        have := hclear r hr
        omega
      rw [List.exists_mem_cons_iff, ih]
      constructor
      · rintro (⟨hge, hlt⟩ | ⟨hge, hbefore, hnot⟩)
        · exact ⟨by omega, by omega, hshown hlt⟩
        · exact ⟨by omega, hbefore, hnot⟩
      · rintro ⟨hge, hbefore, hnot⟩
        rcases Nat.lt_or_ge o stop with ho | ho
        · exact .inl ⟨by omega, ho⟩
        · exact .inr ⟨ho, hbefore, hnot⟩
  | @hide m _ left _ r rest marked acts hfront hstart hlt hle hmarked htail ih =>
      rw [Held.start_splitAt_of_le (by omega)] at ih
      rw [List.exists_mem_cons_iff, ih, Cover.covers_of_front hfront]
      simp only [Act.Shows, record, false_or]
      constructor
      · rintro ⟨hge, hbefore, hnot⟩
        exact ⟨by omega, hbefore, not_or.mpr ⟨by omega, hnot⟩⟩
      · rintro ⟨hge, hbefore, hnot⟩
        obtain ⟨hout, hnot⟩ := not_or.mp hnot
        exact ⟨by omega, hbefore, hnot⟩

/-- What was to be hidden is hidden by the acts or is still to be hidden behind them. -/
theorem Deals.covers_iff (h : Deals m left acts m' left') :
    m.cover.Covers o ↔ (∃ act ∈ acts, act.Hides o) ∨ m'.cover.Covers o := by
  induction h with
  | done => simp
  | copy _ _ _ _ _ ih =>
      rw [ih, List.exists_mem_cons_iff]
      simp only [Act.Hides, false_or]
  | hide hfront _ _ _ _ _ ih =>
      rw [Cover.covers_of_front hfront, List.exists_mem_cons_iff, or_assoc, ← ih]
      rfl

theorem Deals.bounds_of_hides (h : Deals m left acts m' left') (ho : ∃ act ∈ acts, act.Hides o) :
    left.start ≤ o ∧ o < left'.start := by
  induction h with
  | done => simp at ho
  | copy hstart hlt _ _ _ ih =>
      rw [List.exists_mem_cons_iff] at ho
      obtain ⟨hge, hbefore⟩ := ih (ho.resolve_left id)
      rw [Held.start_splitAt_of_le (by omega)] at hge
      exact ⟨by omega, hbefore⟩
  | hide hfront hstart hlt _ _ htail ih =>
      obtain ⟨-, -, -, hfar⟩ := htail.frame
      rw [Held.start_splitAt_of_le (by omega)] at ih hfar
      rw [List.exists_mem_cons_iff] at ho
      rcases ho with ⟨hge, hin⟩ | ho
      · exact ⟨by omega, by omega⟩
      · obtain ⟨hge, hbefore⟩ := ih ho
        exact ⟨by omega, hbefore⟩

/-! ## What a refusal leaves -/

theorem Consistent.start_le_deliver (hc : m.Consistent m.held) {upto : Nat}
    (hupto : upto ≤ m.finder.consumed) (sink : Sink) :
    m.held.start ≤ (m.deliver sink upto).masker.held.start := by
  obtain ⟨m', left', hdeals, ⟨-, -, hmasker, -⟩ | ⟨-, hmasker⟩⟩ := deliver_cases hc hupto sink
  · obtain ⟨-, -, -, hfar⟩ := hdeals.frame
    rw [hmasker]
    exact hfar
  · obtain ⟨-, hheld, -⟩ := hdeals.frame
    rw [hmasker]
    exact Nat.le_of_eq (congrArg Held.start hheld).symm

/-- Of the offsets still held, those that a range held before are held by a range, or lost. -/
theorem Consistent.covers_deliver (hc : m.Consistent m.held) {upto : Nat}
    (hupto : upto ≤ m.finder.consumed) (sink : Sink)
    (ho : (m.deliver sink upto).masker.held.start ≤ o) :
    m.cover.Covers o ↔
      (m.deliver sink upto).masker.cover.Covers o ∨ (m.deliver sink upto).Loses o := by
  obtain ⟨m', left', hdeals, hcases⟩ := deliver_cases hc hupto sink
  rw [← Cover.covers_refill m.cover upto o, hdeals.covers_iff, or_comm, Delivery.Loses]
  rcases hcases with ⟨hnone, -, hmasker, -⟩ | ⟨hsome, hmasker⟩
  · -- What is hidden for good is not held any more.
    rw [hmasker] at ho ⊢
    refine or_congr_right (iff_of_false (fun hhides => ?_) fun hlost => hlost.1 hnone)
    exact absurd (hdeals.bounds_of_hides hhides).2 (Nat.not_lt.mpr ho)
  · rw [hmasker, and_iff_right hsome]

/-- What a delivery loses is still held, and in no range. -/
theorem Consistent.of_loses (hc : m.Consistent m.held) {upto : Nat}
    (hupto : upto ≤ m.finder.consumed) {sink : Sink} (h : (m.deliver sink upto).Loses o) :
    (m.deliver sink upto).masker.held.start ≤ o ∧ o < (m.deliver sink upto).masker.finder.consumed ∧
      ¬(m.deliver sink upto).masker.cover.Covers o := by
  obtain ⟨hsome, hhides⟩ := h
  obtain ⟨m', left', hdeals, ⟨hnone, -⟩ | ⟨-, hmasker⟩⟩ := deliver_cases hc hupto sink
  · exact absurd hnone hsome
  · obtain ⟨-, hheld, -⟩ := hdeals.frame
    obtain ⟨hge, hbefore⟩ := hdeals.bounds_of_hides hhides
    have hstopped := (hc.refill upto).deals hdeals
    have hlen := hstopped.held_length
    rw [hmasker, hheld]
    refine ⟨hge, by omega, fun hcov => ?_⟩
    exact absurd (hstopped.canonical.le_of_covers hcov) (Nat.not_le.mpr hbefore)

/-- At the end all comes out that no range covers. -/
theorem Consistent.finish_shows (hc : m.Consistent m.held) {sink : Sink}
    (hnone : (m.finish sink).error = none) (hge : m.held.start ≤ o) (hlt : o < m.finder.consumed)
    (hnot : ¬m.cover.Covers o) : ∃ act ∈ (m.finish sink).done, act.Shows o := by
  obtain ⟨m', left', hdeals, hcases⟩ := deliver_cases hc (Nat.le_refl m.finder.consumed) sink
  rw [finish] at hnone ⊢
  cases herr : (m.deliver sink m.finder.consumed).error with
  | some e => simp [herr] at hnone
  | none =>
      rcases hcases with ⟨-, -, -, hfar⟩ | ⟨hsome, -⟩
      · exact hdeals.shows_iff.mpr ⟨hge, by omega, mt (Cover.covers_refill ..).mp hnot⟩
      · exact absurd herr hsome

end

/-! ## Runs -/

theorem carryOut_done_isPrefix (m : Masker) (left : Held) (sink : Sink) (acts : List Act) :
    (m.carryOut left sink acts).done <+: acts := by
  induction acts generalizing m left sink with
  | nil => exact List.prefix_rfl
  | cons act acts ih =>
      rw [carryOut]
      split
      · exact List.nil_prefix
      · exact (List.prefix_cons_inj act).mpr (ih ..)

theorem deliver_done_isPrefix (m : Masker) (sink : Sink) (upto : Nat) :
    (m.deliver sink upto).done <+: m.acts upto := by
  rw [deliver_eq]
  exact carryOut_done_isPrefix ..

/-- What a masker that is given the portion sets out to do. -/
def writeActs (m : Masker) (portion : Bytes) : List Act :=
  (m.absorb portion).1.acts ((m.absorb portion).1.finder.consumed - m.lag)

/-- What a masker that is to finish sets out to do. -/
def finishActs (m : Masker) : List Act := m.acts m.finder.consumed

theorem write_done_isPrefix (m : Masker) (sink : Sink) (portion : Bytes) :
    (m.write sink portion).done <+: m.writeActs portion := by
  rw [write_eq]
  exact deliver_done_isPrefix ..

theorem finish_done_isPrefix (m : Masker) (sink : Sink) :
    (m.finish sink).done <+: m.finishActs := by
  rw [finish]
  split
  · exact deliver_done_isPrefix ..
  · exact deliver_done_isPrefix ..

/-- The masker has read the stream. Of what it holds, those offsets are covered that one of its
ranges holds or that are lost. -/
structure Remembers (f : Finder) (stream : Bytes) (lost : Nat → Prop) (m : Masker) : Prop
    extends m.Consistent m.held where
  finder_eq : m.finder = (f.feed stream).1
  base_le : f.consumed ≤ m.held.start
  covers_iff : ∀ o, m.held.start ≤ o → (f.Covers stream o ↔ m.cover.Covers o ∨ lost o)

section

variable {f : Finder} {stream : Bytes} {lost : Nat → Prop} {m : Masker}

theorem remembers_start (hf : f.Sound) (marker : Bytes) :
    Remembers f [] (fun _ => False) (start f marker) where
  toConsistent := consistent_start hf marker
  finder_eq := rfl
  base_le := Nat.le_refl _
  covers_iff := fun o _ => by
    refine iff_of_false Finder.not_covers_nil ?_
    simp [start, Cover.Covers, Cover.toList]

theorem Remembers.absorb (hm : Remembers f stream lost m) (hf : f.Sound) (portion : Bytes) :
    Remembers f (stream ++ portion) lost (m.absorb portion).1 where
  toConsistent := hm.toConsistent.absorb portion
  finder_eq := by
    rw [Finder.feed_append_finder, ← hm.finder_eq]
    rfl
  base_le := hm.base_le
  covers_iff := fun o ho => by
    have hheld : m.held.start ≤ o := ho
    rw [Finder.covers_append hf, hm.covers_iff o hheld, covers_absorb hheld, ← hm.finder_eq,
      and_iff_right (Nat.le_trans hm.base_le hheld), or_right_comm]

theorem Remembers.deliver (hm : Remembers f stream lost m) {upto : Nat}
    (hupto : upto ≤ m.finder.consumed) (sink : Sink) :
    Remembers f stream (fun o => lost o ∨ (m.deliver sink upto).Loses o)
      (m.deliver sink upto).masker := by
  obtain ⟨hconsistent, hfinder, -⟩ := hm.toConsistent.deliver hupto sink
  have hfar := hm.toConsistent.start_le_deliver hupto sink
  refine ⟨hconsistent, hfinder.trans hm.finder_eq, Nat.le_trans hm.base_le hfar, fun o ho => ?_⟩
  rw [hm.covers_iff o (Nat.le_trans hfar ho), hm.toConsistent.covers_deliver hupto sink ho,
    or_assoc, or_comm (b := lost o)]

theorem Remembers.write (hm : Remembers f stream lost m) (hf : f.Sound) (sink : Sink)
    (portion : Bytes) :
    Remembers f (stream ++ portion) (fun o => lost o ∨ (m.write sink portion).Loses o)
      (m.write sink portion).masker := by
  rw [write_eq]
  exact (hm.absorb hf portion).deliver (Nat.sub_le _ m.lag) sink

theorem Remembers.afterAll (hm : Remembers f stream lost m) (hf : f.Sound) (sink : Sink)
    (portions : List Bytes) :
    Remembers f (stream ++ portions.flatten)
      (fun o => lost o ∨ ∃ d ∈ m.deliveries sink portions, d.Loses o)
      (m.afterAll sink portions).1 := by
  induction portions generalizing m sink stream lost with
  | nil => simpa [deliveries] using hm
  | cons portion rest ih =>
      have hrest := ih (hm.write hf sink portion) (m.write sink portion).sink
      rw [afterAll_cons, List.flatten_cons, ← List.append_assoc]
      simpa [deliveries, or_assoc] using hrest

/-- A covered byte comes out just when it is lost. -/
theorem Remembers.covers_iff_lost (hm : Remembers f stream lost m) {upto : Nat}
    (hupto : upto ≤ m.finder.consumed) {act : Act} (hact : act ∈ m.acts upto) {o : Nat}
    (ho : act.Shows o) : f.Covers stream o ↔ lost o := by
  obtain ⟨m', left', hdeals, -⟩ := reaches_acts hm.toConsistent hupto
  obtain ⟨hge, -, hnot⟩ := hdeals.shows_iff.mp ⟨act, hact, ho⟩
  rw [hm.covers_iff o hge]
  exact or_iff_right (mt (Cover.covers_refill ..).mpr hnot)

theorem Consistent.write_loses (hc : m.Consistent m.held) {sink : Sink} {portion : Bytes} {o : Nat}
    (h : (m.write sink portion).Loses o) {sink' : Sink}
    (hnone : ((m.write sink portion).masker.finish sink').error = none) :
    ∃ act ∈ ((m.write sink portion).masker.finish sink').done, act.Shows o := by
  have hafter := hc.write sink portion
  rw [write_eq] at h hnone hafter ⊢
  obtain ⟨hge, hlt, hnot⟩ := (hc.absorb portion).of_loses (Nat.sub_le _ m.lag) h
  exact hafter.finish_shows hnone hge hlt hnot

end

end Masker

/-- Whatever the sink refuses: what a masker hands on begins what it sets out to hand on, and of
the bytes that are covered by then it sets out to hand on just those that an earlier delivery had
hidden before it was refused. What the last delivery lost in this way does come out if the masker
can finish. -/
theorem shown_iff_lost {patterns : List Bytes} (h : [] ∉ patterns) :
    ∃ fresh, Finder.ofPatterns patterns = .ok fresh ∧
      ∀ (fed marker : Bytes) (sink : Sink) (portions : List Bytes),
        let f := (fresh.feed fed).1
        let run := (Masker.start f marker).deliveries sink portions
        let m := ((Masker.start f marker).afterAll sink portions).1
        (∀ sink' : Sink, (m.finish sink').done <+: m.finishActs) ∧
        (∀ act ∈ m.finishActs, ∀ o, act.Shows o →
          (f.Covers portions.flatten o ↔ ∃ d ∈ run, d.Loses o)) ∧
        ∀ portion : Bytes,
          (∀ act ∈ m.writeActs portion, ∀ o, act.Shows o →
            (f.Covers (portions.flatten ++ portion) o ↔ ∃ d ∈ run, d.Loses o)) ∧
          ∀ sink' : Sink,
            let d := m.write sink' portion
            d.done <+: m.writeActs portion ∧
            ∀ (sink'' : Sink) (o : Nat), d.Loses o → (d.masker.finish sink'').error = none →
              ∃ act ∈ (d.masker.finish sink'').done, act.Shows o := by
  let fresh := Finder.fresh patterns
  refine ⟨fresh, Finder.ofPatterns_eq_ok_iff.mpr ⟨h, rfl⟩, fun fed marker sink portions => ?_⟩
  have hf := (Finder.sound_fresh h).feed fed
  have hrun := (Masker.remembers_start hf marker).afterAll hf sink portions
  simp only [List.nil_append, false_or] at hrun
  refine ⟨Masker.finish_done_isPrefix _, ?_, fun portion => ⟨?_, fun sink' =>
    ⟨Masker.write_done_isPrefix .., fun sink'' o hlost hnone => ?_⟩⟩⟩
  · intro act hact o ho
    exact hrun.covers_iff_lost (Nat.le_refl _) hact ho
  · intro act hact o ho
    exact (hrun.absorb hf portion).covers_iff_lost (Nat.sub_le ..) hact ho
  · exact hrun.toConsistent.write_loses hlost hnone

/-- The marker is taken and the bytes behind it are refused. The masker that is given nothing
more then sets out to hand on what the marker stood for. -/
theorem shown_iff_lost_behind_marker :
    ∃ fresh, Finder.ofPatterns [[97, 98]] = .ok fresh ∧
      let m := ((Masker.start fresh [35]).afterAll { refused := [1] } [[97, 98, 120, 121, 122]]).1
      m.writeActs [] = [.copy 0 4] ∧ m.finishActs = [.copy 0 5] ∧
        fresh.Covers [97, 98, 120, 121, 122] 1 ∧ ¬fresh.Covers [97, 98, 120, 121, 122] 2 := by
  have hne : ([] : Bytes) ∉ ([[97, 98]] : List Bytes) := by decide
  obtain ⟨fresh, hfresh, hrun⟩ := shown_iff_lost hne
  obtain rfl := (Finder.ofPatterns_eq_ok_iff.mp hfresh).2
  obtain ⟨-, hfinish, hwrite⟩ := hrun [] [35] { refused := [1] } [[97, 98, 120, 121, 122]]
  refine ⟨_, hfresh, by decide +kernel, by decide +kernel, ?_, ?_⟩
  · exact ((hwrite []).1 (.copy 0 4) (by decide +kernel) 1 (by decide)).mpr (by decide +kernel)
  · exact mt (hfinish (.copy 0 5) (by decide +kernel) 2 (by decide)).mp (by decide +kernel)

/-- One refusal, and the pattern comes out although it had been found and hidden before. -/
theorem refused_write_shows_pattern :
    ∃ fresh, Finder.ofPatterns [[97, 98]] = .ok fresh ∧
      let run := (Masker.start fresh [35]).session { refused := [1] } [[97, 98, 120, 121, 122], []]
      run.map (·.out) = [[35], [97, 98, 120, 121], [122]] ∧
      run.map (·.error) = [some .callRefused, none, none] ∧
      run.map (·.done) =
        [[.hide 0 ⟨0, 2⟩ true], [.copy 0 4], [.copy 4 5]] ∧
      (Act.copy 0 4).Shows 0 ∧ fresh.Covers [97, 98, 120, 121, 122] 0 := by
  have hne : ([] : Bytes) ∉ ([[97, 98]] : List Bytes) := by decide
  exact ⟨_, Finder.ofPatterns_eq_ok_iff.mpr ⟨hne, rfl⟩, by decide +kernel⟩

end Redaction
