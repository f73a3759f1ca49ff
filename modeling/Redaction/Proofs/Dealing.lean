import Redaction.Masker
import Redaction.Proofs.Coverage
import Redaction.Proofs.Room

/-!
# Acts that deal with a stream

`Masker.Consistent` ties what a masker has still to hand on to what it has still to hide:
the bytes held reach from their offset to the end of what was read, and the ranges to be
hidden lie among them, apart from each other and in order.

`Masker.Deals` is a run of acts that fits such a masker. Each act begins where the one
before ended, no copied run goes past the start of a range, and a range is hidden when its
first byte is the next one. Three facts tie it to the masker:

- a plan is such a run, it gets as far as it was made for, and where it gets further all is
  covered (`reaches_plan`);
- carrying it out either does all of it or stops behind some of its acts (`carryOut_cases`);
- what it hands on is `Masker.text`, of which a sink that refuses has taken a beginning, and
  which a sink refuses for want of room just when it does not fit (`carryOut_hands`).

So an invariant has to be shown for one copied run and for one hidden range only.
-/

namespace Redaction

/-! ## How long a plan is -/

/-- Between two ranges, and behind the last, at most one run of bytes is copied. -/
theorem length_plan_le (upto pos : Nat) (hiddenTo : Option Nat) (ranges : List Range) :
    (plan upto pos hiddenTo ranges).length ≤ 2 * ranges.length + 1 := by
  induction ranges generalizing pos hiddenTo with
  | nil =>
      rw [plan]
      split <;> simp
  | cons r rest ih =>
      have hrest := ih r.stop (some r.stop)
      rw [plan]
      split
      · exact Nat.zero_le _
      · split
        · simp only [List.length_cons]
          omega
        · split
          · simp only [List.length_cons]
            omega
          · simp only [List.length_cons, List.length_nil]
            omega

/-! ## Taking away from what is left -/

namespace Held

theorem start_splitAt_of_le {h : Held} {stop : Nat} (hle : h.start ≤ stop) :
    (h.splitAt stop).2.start = stop := by
  rw [start_splitAt, Nat.max_eq_right hle]

theorem stop_splitAt {h : Held} {stop : Nat} (hle : h.start ≤ stop)
    (hstop : stop ≤ h.start + h.toList.length) :
    (h.splitAt stop).2.start + (h.splitAt stop).2.toList.length =
      h.start + h.toList.length := by
  rw [start_splitAt_of_le hle, toList_splitAt, List.length_drop]
  omega

theorem length_fst_splitAt {h : Held} {stop : Nat} (hstop : stop ≤ h.start + h.toList.length) :
    (h.splitAt stop).1.length = stop - h.start := by
  rw [fst_splitAt, List.length_take]
  omega

end Held

namespace Cover

theorem toList_of_front {c : Cover} {r : Range} {rest : List Range} (h : c.front = r :: rest) :
    c.toList = r :: c.dropFirst.toList := by
  simp [toList, dropFirst, h]

/-- Only where the ranges start matters for the base. -/
theorem Canonical.rebase {base base' : Nat} {c : Cover} (hc : c.Canonical base)
    (h : ∀ r ∈ c.toList, base' ≤ r.start) : c.Canonical base' :=
  ⟨fun r hr => ⟨h r hr, (hc.1 r hr).2⟩, hc.2⟩

theorem Canonical.dropFirst {base : Nat} {c : Cover} (hc : c.Canonical base) {r : Range}
    {rest : List Range} (h : c.front = r :: rest) : c.dropFirst.Canonical r.stop := by
  obtain ⟨hall, hpair⟩ := hc
  rw [toList_of_front h] at hall hpair
  obtain ⟨hr, hpair⟩ := List.pairwise_cons.mp hpair
  exact ⟨fun x hx => ⟨Nat.le_of_lt (hr x hx), (hall x (List.mem_cons_of_mem r hx)).2⟩, hpair⟩

/-- The first range is the first to start. -/
theorem Canonical.start_le {base : Nat} {c : Cover} (hc : c.Canonical base) {r : Range}
    {rest : List Range} (h : c.front = r :: rest) : ∀ x ∈ c.toList, r.start ≤ x.start := by
  have hlt := (hc.1 r (toList_of_front h ▸ List.mem_cons_self)).2
  intro x hx
  rw [toList_of_front h] at hx
  rcases List.mem_cons.mp hx with rfl | hx
  · exact Nat.le_refl _
  · have := ((hc.dropFirst h).1 x hx).1
    omega

end Cover

namespace Masker

/-! ## Consistent maskers -/

/-- What is left of the stream and what is to be hidden of it fit together. Between two calls
what is left is what the masker holds. -/
structure Consistent (m : Masker) (left : Held) : Prop where
  sound : m.finder.Sound
  held_length : left.start + left.toList.length = m.finder.consumed
  canonical : m.cover.Canonical left.start
  within : ∀ r ∈ m.cover.toList, r.stop ≤ m.finder.consumed

/-- The acts fit the masker that has dealt with all that is not left, and make it another. -/
inductive Deals : Masker → Held → List Act → Masker → Held → Prop
  | done (m : Masker) (left : Held) : Deals m left [] m left
  | copy {m m' : Masker} {left left' : Held} {start stop : Nat} {acts : List Act}
      (hstart : start = left.start) (hlt : start < stop)
      (hle : stop ≤ left.start + left.toList.length)
      (hclear : ∀ r ∈ m.cover.toList, stop ≤ r.start)
      (htail : Deals m (left.splitAt stop).2 acts m' left') :
      Deals m left (.copy start stop :: acts) m' left'
  | hide {m m' : Masker} {left left' : Held} {r : Range} {rest : List Range} {marked : Bool}
      {acts : List Act} (hfront : m.cover.front = r :: rest) (hstart : r.start = left.start)
      (hlt : r.start < r.stop) (hle : r.stop ≤ left.start + left.toList.length)
      (hmarked : marked = (m.hiddenTo != some r.start))
      (htail : Deals (m.record (.hide r.start r marked)) (left.splitAt r.stop).2 acts m' left') :
      Deals m left (.hide r.start r marked :: acts) m' left'

section

variable {m m' : Masker} {left left' : Held} {acts : List Act} {upto : Nat}

theorem Consistent.copy (hc : m.Consistent left) {stop : Nat} (hlt : left.start < stop)
    (hle : stop ≤ left.start + left.toList.length)
    (hclear : ∀ r ∈ m.cover.toList, stop ≤ r.start) : m.Consistent (left.splitAt stop).2 where
  sound := hc.sound
  held_length := (Held.stop_splitAt (Nat.le_of_lt hlt) hle).trans hc.held_length
  canonical := by
    rw [Held.start_splitAt_of_le (Nat.le_of_lt hlt)]
    exact hc.canonical.rebase hclear
  within := hc.within

theorem Consistent.hide (hc : m.Consistent left) {r : Range} {rest : List Range}
    (hfront : m.cover.front = r :: rest) (hstart : r.start = left.start)
    (hlt : r.start < r.stop) (hle : r.stop ≤ left.start + left.toList.length) (marked : Bool) :
    (m.record (.hide r.start r marked)).Consistent (left.splitAt r.stop).2 where
  sound := hc.sound
  held_length := (Held.stop_splitAt (by omega) hle).trans hc.held_length
  canonical := by
    rw [Held.start_splitAt_of_le (by omega)]
    exact hc.canonical.dropFirst hfront
  within := fun x hx =>
    hc.within x (Cover.toList_of_front hfront ▸ List.mem_cons_of_mem r hx)

theorem Consistent.deals (h : Deals m left acts m' left') (hc : m.Consistent left) :
    m'.Consistent left' := by
  induction h with
  | done => exact hc
  | copy hstart hlt hle hclear _ ih => exact ih (hc.copy (hstart ▸ hlt) hle hclear)
  | hide hfront hstart hlt hle _ _ ih => exact ih (hc.hide hfront hstart hlt hle _)

/-- Nothing but the cover and the account of what was hidden changes on the way. -/
theorem Deals.frame (h : Deals m left acts m' left') :
    m'.finder = m.finder ∧ m'.held = m.held ∧ m'.marker = m.marker ∧ left.start ≤ left'.start := by
  induction h with
  | done => exact ⟨rfl, rfl, rfl, Nat.le_refl _⟩
  | copy hstart hlt hle hclear _ ih =>
      obtain ⟨hfinder, hheld, hmarker, hfar⟩ := ih
      rw [Held.start_splitAt] at hfar
      exact ⟨hfinder, hheld, hmarker, by omega⟩
  | hide hfront hstart hlt hle _ _ ih =>
      obtain ⟨hfinder, hheld, hmarker, hfar⟩ := ih
      rw [Held.start_splitAt] at hfar
      exact ⟨hfinder, hheld, hmarker, by omega⟩

/-! ## Plans -/

/-- The acts fit the masker and get to `upto` at least; where they get further, it is because a
range does. -/
def Reaches (m : Masker) (left : Held) (upto : Nat) (acts : List Act) : Prop :=
  ∃ m' left', m.Deals left acts m' left' ∧ upto ≤ left'.start ∧
    ∀ o, left.start ≤ o → upto ≤ o → o < left'.start → m.cover.Covers o

theorem Reaches.done (h : upto ≤ left.start) : m.Reaches left upto [] :=
  ⟨m, left, .done .., h, fun _ ho _ hlt => absurd hlt (Nat.not_lt.mpr ho)⟩

theorem Reaches.copy {stop : Nat} (hlt : left.start < stop)
    (hle : stop ≤ left.start + left.toList.length)
    (hclear : ∀ r ∈ m.cover.toList, stop ≤ r.start) (hupto : stop ≤ upto)
    (h : m.Reaches (left.splitAt stop).2 upto acts) :
    m.Reaches left upto (.copy left.start stop :: acts) := by
  obtain ⟨m', left', hdeals, hfar, hover⟩ := h
  rw [Held.start_splitAt_of_le (Nat.le_of_lt hlt)] at hover
  refine ⟨m', left', .copy rfl hlt hle hclear hdeals, hfar, ?_⟩
  intro o _ ho hbefore
  exact hover o (Nat.le_trans hupto ho) ho hbefore

theorem Reaches.hide {r : Range} {rest : List Range} {marked : Bool}
    (hfront : m.cover.front = r :: rest) (hstart : r.start = left.start) (hlt : r.start < r.stop)
    (hle : r.stop ≤ left.start + left.toList.length)
    (hmarked : marked = (m.hiddenTo != some r.start))
    (h : (m.record (.hide r.start r marked)).Reaches (left.splitAt r.stop).2 upto acts) :
    m.Reaches left upto (.hide r.start r marked :: acts) := by
  obtain ⟨m', left', hdeals, hfar, hover⟩ := h
  rw [Held.start_splitAt_of_le (by omega)] at hover
  have htoList := Cover.toList_of_front hfront
  refine ⟨m', left', .hide hfront hstart hlt hle hmarked hdeals, hfar, ?_⟩
  intro o hbase ho hbefore
  rcases Nat.lt_or_ge o r.stop with hin | hout
  · exact ⟨r, htoList ▸ List.mem_cons_self, by omega, hin⟩
  · obtain ⟨x, hx, hxo⟩ := hover o hout ho hbefore
    exact ⟨x, htoList ▸ List.mem_cons_of_mem r hx, hxo⟩

/-- A plan for the ranges in front will do, if there are enough of them in front. -/
theorem reaches_plan (hc : m.Consistent left) (hupto : upto ≤ m.finder.consumed)
    (henough : (∃ r ∈ m.cover.front, upto ≤ r.start) ∨ m.cover.latestFirst = []) :
    m.Reaches left upto (plan upto left.start m.hiddenTo m.cover.front) := by
  induction hfront : m.cover.front generalizing m left with
  | nil =>
      have hnone : m.cover.toList = [] := by
        rcases henough with ⟨r, hr, -⟩ | hlatest
        · rw [hfront] at hr
          cases hr
        · simp [Cover.toList, hfront, hlatest]
      rw [plan]
      split
      · rename_i hlt
        refine .copy hlt (hc.held_length ▸ hupto) (by simp [hnone]) (Nat.le_refl upto) (.done ?_)
        exact Nat.le_of_eq (Held.start_splitAt_of_le (Nat.le_of_lt hlt)).symm
      · rename_i hge
        exact .done (Nat.le_of_not_lt hge)
  | cons r rest ih =>
      obtain ⟨hbase, hne⟩ := hc.canonical.1 r (Cover.toList_of_front hfront ▸ List.mem_cons_self)
      have hclear := hc.canonical.start_le hfront
      have hstop := hc.within r (Cover.toList_of_front hfront ▸ List.mem_cons_self)
      -- Where the range begins it is hidden, and the rest of the plan is for what is behind it.
      have hidden {at' : Held} (hat : m.Consistent at') (hstart : r.start = at'.start)
          (hlt : r.start < upto) : m.Reaches at' upto
            (.hide r.start r (m.hiddenTo != some r.start) ::
              plan upto r.stop (some r.stop) rest) := by
        have hle : r.stop ≤ at'.start + at'.toList.length := hat.held_length ▸ hstop
        have hnext : (at'.splitAt r.stop).2.start = r.stop := Held.start_splitAt_of_le (by omega)
        have hrest : (∃ x ∈ rest, upto ≤ x.start) ∨ m.cover.latestFirst = [] := by
          rcases henough with ⟨x, hx, hle⟩ | hlatest
          · rw [hfront] at hx
            rcases List.mem_cons.mp hx with rfl | hx
            · omega
            · exact .inl ⟨x, hx, hle⟩
          · exact .inr hlatest
        have hfront' : (m.record (.hide r.start r (m.hiddenTo != some r.start))).cover.front =
            rest := by
          simp [record, Cover.dropFirst, hfront]
        refine .hide hfront hstart hne hle rfl ?_
        have hreaches := ih (hat.hide hfront hstart hne hle _) hupto (hfront' ▸ hrest) hfront'
        rwa [hnext] at hreaches
      rw [plan]
      split
      · rename_i hdone
        exact .done hdone
      · rename_i hahead
        split
        · rename_i hreached
          have hstart : r.start = left.start := Nat.le_antisymm hreached hbase
          have hreaches := hidden hc hstart (by omega)
          rwa [hstart] at hreaches ⊢
        · rename_i hbehind
          split
          · rename_i hlt
            have hle : r.start ≤ left.start + left.toList.length := by
              rw [hc.held_length]
              omega
            have hpos := Nat.lt_of_not_le hbehind
            exact .copy hpos hle hclear (Nat.le_of_lt hlt)
              (hidden (hc.copy hpos hle hclear) (Held.start_splitAt_of_le hbase).symm hlt)
          · rename_i hfar
            refine .copy (by omega) (hc.held_length ▸ hupto) (fun x hx => ?_) (Nat.le_refl upto)
              (.done ?_)
            · have := hclear x hx
              omega
            · exact Nat.le_of_eq (Held.start_splitAt_of_le (by omega)).symm

/-! ## Carrying acts out -/

/-- What the acts hand on when nothing is refused. -/
def text (m : Masker) (left : Held) : List Act → Bytes
  | [] => []
  | act :: acts =>
    m.bytesFor (left.splitAt act.stop).1 act ++
      (m.record act).text (left.splitAt act.stop).2 acts

/-- The first act fits what is left, and the others what it leaves. What a sink takes of it when
it refuses the rest is a beginning of what the act hands on. -/
theorem Deals.uncons {act : Act} (h : Deals m left (act :: acts) m' left') :
    m.handedOn act = (m.bytesFor (left.splitAt act.stop).1 act).length ∧
      (∀ n ≤ m.handedOn act,
        (m.bytesFor (left.take n) act).take n <+: m.bytesFor (left.splitAt act.stop).1 act) ∧
      Deals (m.record act) (left.splitAt act.stop).2 acts m' left' ∧
      ∀ {done m'' left''}, Deals (m.record act) (left.splitAt act.stop).2 done m'' left'' →
        Deals m left (act :: done) m'' left'' := by
  cases h with
  | @copy _ _ _ _ start stop _ hstart hlt hle hclear htail =>
      refine ⟨?_, fun n hn => ?_, htail, fun hdone => .copy hstart hlt hle hclear hdone⟩
      · rw [handedOn, bytesFor, Act.stop, Held.length_fst_splitAt hle, hstart]
      · rw [handedOn, hstart] at hn
        simp only [bytesFor, Act.stop, Held.take_eq, Held.fst_splitAt, List.take_take, Nat.min_self]
        exact List.take_prefix_take_left hn
  | hide hfront hstart hlt hle hmarked htail =>
      refine ⟨?_, fun n _ => List.take_prefix n _, htail,
        fun hdone => .hide hfront hstart hlt hle hmarked hdone⟩
      rw [handedOn, bytesFor]
      split
      · rfl
      · rfl

end

end Masker

/-- The piece was handed to the sink: it took all of it, or took a beginning of it and refused.
A sink that refuses for want of room takes all if the piece fits. -/
structure Delivery.Hands (d : Delivery) (sink : Sink) (piece : Bytes) : Prop where
  out_isPrefix : d.out <+: piece
  out_eq : d.error = none → d.out = piece
  takes : d.error = none → sink.Takes piece.length d.sink
  error_iff : sink.refused = [] → (d.error = none ↔ sink.Fits piece.length)

namespace Masker

section

variable {m m' : Masker} {left left' : Held} {acts : List Act}

theorem carryOut_hands (h : Deals m left acts m' left') (sink : Sink) :
    (m.carryOut left sink acts).Hands sink (m.text left acts) := by
  induction acts generalizing m left sink with
  | nil =>
      exact ⟨List.prefix_refl _, fun _ => rfl, fun _ => .refl sink,
        fun _ => iff_of_true rfl fun room _ => Nat.zero_le room⟩
  | cons act acts ih =>
      obtain ⟨hlen, hpre, htail, -⟩ := h.uncons
      have hput := sink.taken_put_le (m.handedOn act)
      rw [carryOut, text]
      cases herr : (sink.put (m.handedOn act)).error with
      | some e =>
          refine ⟨(hpre _ hput).trans (List.prefix_append ..),
            fun hnone => absurd hnone (Option.some_ne_none e),
            fun hnone => absurd hnone (Option.some_ne_none e), fun hrefused => ?_⟩
          refine iff_of_false (Option.some_ne_none e) fun hfits => ?_
          have hfits := hfits.mono (k := m.handedOn act) (by rw [List.length_append, ← hlen]; omega)
          rw [(Sink.put_error_iff hrefused _).mpr hfits] at herr
          cases herr
      | none =>
          have htakes := Sink.takes_put herr
          obtain ⟨hout, heq, hrest, hiff⟩ := ih htail (sink.put (m.handedOn act)).sink
          refine ⟨(List.prefix_append_right_inj _).mpr hout, fun hnone => congrArg _ (heq hnone),
            fun hnone => ?_, fun hrefused => ?_⟩
          · rw [List.length_append, ← hlen]
            exact htakes.trans (hrest hnone)
          · rw [List.length_append, ← hlen, htakes.fits_add]
            exact hiff (htakes.refused_eq.trans hrefused)

/-- The acts are all done, or the sink refuses one of them: what the masker holds is then as it
was, and the acts before that one are done for good. -/
theorem carryOut_cases (h : Deals m left acts m' left') (sink : Sink) :
    (m.carryOut left sink acts).error = none ∧ (m.carryOut left sink acts).done = acts ∧
        (m.carryOut left sink acts).masker = { m' with held := left' } ∨
      (m.carryOut left sink acts).error ≠ none ∧ ∃ left'',
        Deals m left (m.carryOut left sink acts).done (m.carryOut left sink acts).masker left'' := by
  induction acts generalizing m left sink with
  | nil =>
      cases h
      exact .inl ⟨rfl, rfl, rfl⟩
  | cons act acts ih =>
      obtain ⟨-, -, htail, hcons⟩ := h.uncons
      rw [carryOut]
      cases herr : (sink.put (m.handedOn act)).error with
      | some e => exact .inr ⟨Option.some_ne_none e, left, .done ..⟩
      | none =>
          rcases ih htail (sink.put (m.handedOn act)).sink with
            ⟨hnone, hall, hmasker⟩ | ⟨hsome, left'', hdone⟩
          · exact .inl ⟨hnone, congrArg (act :: ·) hall, hmasker⟩
          · exact .inr ⟨hsome, left'', hcons hdone⟩

end

/-! ## Delivering -/

/-- The acts that deal with the stream up to an offset. -/
def acts (m : Masker) (upto : Nat) : List Act :=
  plan upto m.held.start m.hiddenTo m.cover.toList

theorem deliver_eq (m : Masker) (sink : Sink) (upto : Nat) :
    m.deliver sink upto =
      { m with cover := m.cover.refill upto }.carryOut m.held sink (m.acts upto) := by
  rw [acts, ← plan_refill]
  rfl

theorem refill_enough (c : Cover) (upto : Nat) :
    (∃ r ∈ (c.refill upto).front, upto ≤ r.start) ∨ (c.refill upto).latestFirst = [] := by
  unfold Cover.refill
  split
  · rename_i h
    exact .inl (by simpa using h)
  · exact .inr rfl

theorem Consistent.refill {m : Masker} {left : Held} (hc : m.Consistent left) (upto : Nat) :
    { m with cover := m.cover.refill upto }.Consistent left where
  sound := hc.sound
  held_length := hc.held_length
  canonical := by simpa [Cover.Canonical] using hc.canonical
  within := by simpa using hc.within

theorem reaches_acts {m : Masker} (hc : m.Consistent m.held) {upto : Nat}
    (hupto : upto ≤ m.finder.consumed) :
    Reaches { m with cover := m.cover.refill upto } m.held upto (m.acts upto) := by
  have hreaches := reaches_plan (hc.refill upto) hupto (refill_enough m.cover upto)
  rwa [plan_refill] at hreaches

/-- The acts that a delivery has done fit the masker. It is as they leave it; if nothing was
refused they were all there were, and the masker holds what they left. -/
theorem deliver_cases {m : Masker} (hc : m.Consistent m.held) {upto : Nat}
    (hupto : upto ≤ m.finder.consumed) (sink : Sink) :
    ∃ m' left',
      Deals { m with cover := m.cover.refill upto } m.held (m.deliver sink upto).done m' left' ∧
      ((m.deliver sink upto).error = none ∧ (m.deliver sink upto).done = m.acts upto ∧
          (m.deliver sink upto).masker = { m' with held := left' } ∧ upto ≤ left'.start ∨
        (m.deliver sink upto).error ≠ none ∧ (m.deliver sink upto).masker = m') := by
  obtain ⟨m', left', hdeals, hfar, -⟩ := reaches_acts hc hupto
  rw [deliver_eq]
  rcases carryOut_cases hdeals sink with ⟨hnone, hall, hmasker⟩ | ⟨hsome, left'', hdone⟩
  · exact ⟨m', left', hall.symm ▸ hdeals, .inl ⟨hnone, hall, hmasker, hfar⟩⟩
  · exact ⟨_, left'', hdone, .inr ⟨hsome, rfl⟩⟩

end Masker

end Redaction
