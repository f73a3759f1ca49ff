import Redaction.Pass
import Redaction.Proofs.Consistency
import Redaction.Proofs.Rendering

/-!
# A masker renders the stream

`Masker.Faithful` relates a masker to the stream that it has read: what it has handed on is
the rendering of the stream up to the bytes that are left, its cover is what is covered
behind that point, and it remembers the end of the last hidden range just when a run of
covered offsets goes on there. Copying up to the next range keeps this, and so does hiding
the range.

Taking in a portion keeps it only if the new matches change nothing in front of what is left.
That is what `Settled` says: an offset already dealt with is out of reach of later bytes, or
else it is covered, as it is when a hidden range went beyond the lag. From it comes also what
a sink that refuses has got: a beginning of every rendering that is still possible
(`Faithful.isPrefix_render`).

The main result, `out_of_run`, is the rendering for every way to divide the stream.
-/

namespace Redaction

/-- Offsets in front of `pos` are covered, or no later byte can cover them any more. -/
def Finder.Settled (f : Finder) (stream : Bytes) (pos : Nat) : Prop :=
  ∀ o, f.consumed ≤ o → o < pos →
    o + (f.longest - 1) < f.consumed + stream.length ∨ f.Covers stream o

namespace Finder

variable {f : Finder} {stream : Bytes} {pos : Nat}

theorem Settled.append (hf : f.Sound) (hs : f.Settled stream pos) (more : Bytes) :
    f.Settled (stream ++ more) pos := by
  intro o hbase hlt
  rcases hs o hbase hlt with hfar | hcov
  · rw [List.length_append]
    exact .inl (by omega)
  · exact .inr (hcov.append hf more)

/-- What is settled stays as it is. -/
theorem Settled.covers_iff (hf : f.Sound) (hs : f.Settled stream pos) (more : Bytes) {o : Nat}
    (ho : o < pos) : f.Covers (stream ++ more) o ↔ f.Covers stream o := by
  refine ⟨fun h => ?_, fun h => h.append hf more⟩
  rcases hs o h.1 ho with hfar | hcov
  · exact (covers_append_iff hf hfar more).mp h
  · exact hcov

/-- Where a delivery ends, all is settled: it hands on what is out of reach, and beyond that only
to the end of a covered range. -/
theorem Settled.delivered {pos' upto : Nat} (hs : f.Settled stream pos)
    (hupto : upto = f.consumed + stream.length - (f.longest - 1))
    (hover : ∀ o, pos ≤ o → upto ≤ o → o < pos' → f.Covers stream o) : f.Settled stream pos' := by
  intro o hbase hlt
  rcases Nat.lt_or_ge o upto with hfar | hnear
  · exact .inl (by omega)
  · rcases Nat.lt_or_ge o pos with hbefore | hbehind
    · exact hs o hbase hbefore
    · exact .inr (hover o hbehind hnear hlt)

end Finder

namespace Masker

/-- The masker has handed on as `out` what the stream, of which it still holds what is left,
has to become; `f` is what its finder was before. -/
structure Faithful (f : Finder) (marker stream out : Bytes) (m : Masker) (left : Held) : Prop
    extends m.Consistent left where
  finder_eq : m.finder = (f.feed stream).1
  marker_eq : m.marker = marker
  base_le : f.consumed ≤ left.start
  left_eq : left.toList = stream.drop (left.start - f.consumed)
  out_eq : out = render (f.Covers stream) marker f.consumed (stream.take (left.start - f.consumed))
  covers_iff : ∀ o, left.start ≤ o → (m.cover.Covers o ↔ f.Covers stream o)
  hiddenTo_le : ∀ e, m.hiddenTo = some e → e ≤ left.start
  hiddenTo_iff : m.hiddenTo = some left.start ↔ ¬StartsRun (f.Covers stream) left.start

section

variable {f : Finder} {marker stream out : Bytes} {m m' : Masker} {left left' : Held}

theorem Faithful.start_le (hf : Faithful f marker stream out m left) :
    left.start ≤ f.consumed + stream.length := by
  have hlen := hf.held_length
  rw [hf.finder_eq, Finder.feed_consumed] at hlen
  omega

/-- Whatever act deals with the bytes up to `stop`: if it hands on their rendering, so is all
that was handed on. -/
theorem Faithful.append_out (hf : Faithful f marker stream out m left) {stop : Nat}
    (hlt : left.start ≤ stop) {piece : Bytes}
    (hpiece : piece = render (f.Covers stream) marker left.start (left.splitAt stop).1) :
    out ++ piece =
      render (f.Covers stream) marker f.consumed (stream.take (stop - f.consumed)) := by
  rw [hpiece, Held.fst_splitAt, hf.left_eq, render_take hf.base_le hlt hf.start_le, ← hf.out_eq]

theorem Faithful.left_splitAt (hf : Faithful f marker stream out m left) {stop : Nat}
    (hlt : left.start ≤ stop) :
    (left.splitAt stop).2.toList = stream.drop (stop - f.consumed) := by
  have hbase := hf.base_le
  rw [Held.toList_splitAt, hf.left_eq, List.drop_drop]
  congr 1
  omega

/-! ## Copying and hiding -/

/-- What lies in front of the ranges is not covered. -/
theorem Faithful.not_covers (hf : Faithful f marker stream out m left) {stop o : Nat}
    (hclear : ∀ r ∈ m.cover.toList, stop ≤ r.start) (ho : left.start ≤ o) (hlt : o < stop) :
    ¬f.Covers stream o := by
  intro hcov
  obtain ⟨r, hr, hle, -⟩ := (hf.covers_iff o ho).mpr hcov
  have := hclear r hr
  omega

/-- A range that begins where the bytes left do holds covered offsets only. -/
theorem Faithful.covers_front (hf : Faithful f marker stream out m left) {r : Range}
    {rest : List Range} (hfront : m.cover.front = r :: rest) (hstart : r.start = left.start)
    {o : Nat} (ho : left.start ≤ o) (hlt : o < r.stop) : f.Covers stream o :=
  (hf.covers_iff o ho).mp ⟨r, Cover.toList_of_front hfront ▸ List.mem_cons_self,
    Nat.le_trans (Nat.le_of_eq hstart) ho, hlt⟩

theorem Faithful.copy (hf : Faithful f marker stream out m left) {stop : Nat}
    (hlt : left.start < stop) (hle : stop ≤ left.start + left.toList.length)
    (hclear : ∀ r ∈ m.cover.toList, stop ≤ r.start) :
    Faithful f marker stream (out ++ (left.splitAt stop).1) m (left.splitAt stop).2 := by
  have hstop := Held.start_splitAt_of_le (Nat.le_of_lt hlt)
  refine ⟨hf.toConsistent.copy hlt hle hclear, hf.finder_eq, hf.marker_eq, ?_, ?_, ?_, ?_, ?_, ?_⟩
  · have := hf.base_le
    omega
  · rw [hstop, hf.left_splitAt (Nat.le_of_lt hlt)]
  · rw [hstop]
    refine hf.append_out (Nat.le_of_lt hlt) (render_of_forall_not fun o ho hend => ?_).symm
    rw [Held.length_fst_splitAt hle] at hend
    exact hf.not_covers hclear ho (by omega)
  · exact fun o ho => hf.covers_iff o (by omega)
  · intro e he
    have := hf.hiddenTo_le e he
    omega
  · rw [hstop]
    refine iff_of_false (fun he => ?_) (not_not_intro (.inr (hf.not_covers hclear ?_ ?_)))
    · have := hf.hiddenTo_le stop he
      omega
    · omega
    · omega

theorem Faithful.hide (hf : Faithful f marker stream out m left) {r : Range} {rest : List Range}
    {marked : Bool} (hfront : m.cover.front = r :: rest) (hstart : r.start = left.start)
    (hlt : r.start < r.stop) (hle : r.stop ≤ left.start + left.toList.length)
    (hmarked : marked = (m.hiddenTo != some r.start)) :
    Faithful f marker stream (out ++ if marked then m.marker else [])
      (m.record (.hide r.start r marked)) (left.splitAt r.stop).2 := by
  have hstop : (left.splitAt r.stop).2.start = r.stop := Held.start_splitAt_of_le (by omega)
  have htoList := Cover.toList_of_front hfront
  refine ⟨hf.toConsistent.hide hfront hstart hlt hle marked, hf.finder_eq, hf.marker_eq,
    ?_, ?_, ?_, ?_, ?_, ?_⟩
  · have := hf.base_le
    omega
  · rw [hstop, hf.left_splitAt (by omega)]
  · rw [hstop]
    refine hf.append_out (by omega) ?_
    rw [render_of_forall ?_ fun o ho hend => ?_]
    · -- A marker stands for the range unless it goes on with the last one hidden.
      have hmark : marked = true ↔ StartsRun (f.Covers stream) left.start := by
        rw [hmarked, hstart, bne_iff_ne, ne_eq, hf.hiddenTo_iff, Decidable.not_not]
      simp only [hmark, hf.marker_eq]
    · rw [← List.length_pos_iff, Held.length_fst_splitAt hle]
      omega
    · rw [Held.length_fst_splitAt hle] at hend
      exact hf.covers_front hfront hstart ho (by omega)
  · intro o ho
    rw [hstop] at ho
    rw [← hf.covers_iff o (by omega), Cover.Covers, Cover.Covers, htoList]
    constructor
    · rintro ⟨x, hx, hxo⟩
      exact ⟨x, List.mem_cons_of_mem r hx, hxo⟩
    · rintro ⟨x, hx, hle, hlt⟩
      rcases List.mem_cons.mp hx with rfl | hx
      · omega
      · exact ⟨x, hx, hle, hlt⟩
  · intro e he
    obtain rfl : r.stop = e := Option.some.inj he
    exact Nat.le_of_eq hstop.symm
  · rw [hstop]
    refine iff_of_true rfl fun hruns => ?_
    rcases hruns with hzero | hnot
    · omega
    · exact hnot (hf.covers_front hfront hstart (by omega) (by omega))

theorem Faithful.deals {acts : List Act} (h : Deals m left acts m' left')
    (hf : Faithful f marker stream out m left) :
    Faithful f marker stream (out ++ m.text left acts) m' left' := by
  induction h generalizing out with
  | done => simpa [text] using hf
  | copy hstart hlt hle hclear _ ih =>
      rw [text, ← List.append_assoc]
      exact ih (hf.copy (hstart ▸ hlt) hle hclear)
  | hide hfront hstart hlt hle hmarked _ ih =>
      rw [text, ← List.append_assoc]
      exact ih (hf.hide hfront hstart hlt hle hmarked)

/-! ## Taking in and handing on -/

theorem faithful_start (hf : f.Sound) (marker : Bytes) :
    Faithful f marker [] [] (start f marker) (start f marker).held := by
  refine ⟨consistent_start hf marker, rfl, rfl, Nat.le_refl _, by simp [start, Held.toList],
    by simp [render], ?_, ?_, ?_⟩
  · intro o _
    refine iff_of_false ?_ Finder.not_covers_nil
    rintro ⟨r, hr, -⟩
    cases hr
  · intro e he
    cases he
  · refine iff_of_false ?_ (not_not_intro (.inr Finder.not_covers_nil))
    intro he
    cases he

theorem Faithful.absorb (hf : Faithful f marker stream out m m.held) (hsound : f.Sound)
    (hs : f.Settled stream m.held.start) (portion : Bytes) :
    Faithful f marker (stream ++ portion) out (m.absorb portion).1 (m.absorb portion).1.held := by
  have hstart := hf.start_le
  have hbase := hf.base_le
  have hle : m.held.start - f.consumed ≤ stream.length := by omega
  refine ⟨hf.toConsistent.absorb portion, ?_, hf.marker_eq, hf.base_le, ?_, ?_, ?_,
    hf.hiddenTo_le, ?_⟩
  · rw [Finder.feed_append_finder, ← hf.finder_eq]
    rfl
  · rw [absorb_eq, Held.toList_push, hf.left_eq, Held.start_push,
      List.drop_append_of_le_length hle]
  · rw [absorb_eq, Held.start_push, List.take_append_of_le_length hle, hf.out_eq]
    refine render_congr fun o ho => (hs.covers_iff hsound portion ?_).symm
    rw [List.length_take] at ho
    omega
  · intro o ho
    have hheld : m.held.start ≤ o := ho
    rw [covers_absorb hheld, hf.covers_iff o hheld, Finder.covers_append hsound, ← hf.finder_eq,
      and_iff_right (Nat.le_trans hf.base_le hheld)]
  · exact hf.hiddenTo_iff.trans (not_congr
      (startsRun_congr fun o ho => (hs.covers_iff hsound portion ho).symm))

theorem Faithful.refill (hf : Faithful f marker stream out m left) (upto : Nat) :
    Faithful f marker stream out { m with cover := m.cover.refill upto } left where
  toConsistent := hf.toConsistent.refill upto
  finder_eq := hf.finder_eq
  marker_eq := hf.marker_eq
  base_le := hf.base_le
  left_eq := hf.left_eq
  out_eq := hf.out_eq
  covers_iff := by simpa [Cover.Covers] using hf.covers_iff
  hiddenTo_le := hf.hiddenTo_le
  hiddenTo_iff := hf.hiddenTo_iff

theorem Faithful.keep (hf : Faithful f marker stream out m left) :
    Faithful f marker stream out { m with held := left } left where
  toConsistent := ⟨hf.sound, hf.held_length, hf.canonical, hf.within⟩
  finder_eq := hf.finder_eq
  marker_eq := hf.marker_eq
  base_le := hf.base_le
  left_eq := hf.left_eq
  out_eq := hf.out_eq
  covers_iff := hf.covers_iff
  hiddenTo_le := hf.hiddenTo_le
  hiddenTo_iff := hf.hiddenTo_iff

/-- Whatever the sink does, a delivery hands on what a faithful masker would hand on, and
becomes that masker if nothing is refused. -/
theorem Faithful.deliver (hf : Faithful f marker stream out m m.held) {upto : Nat}
    (hupto : upto ≤ m.finder.consumed) (sink : Sink) :
    ∃ piece m' left', Faithful f marker stream (out ++ piece) m' left' ∧
      (m.deliver sink upto).Hands sink piece ∧
      ((m.deliver sink upto).error = none →
        (m.deliver sink upto).masker = { m' with held := left' }) ∧
      upto ≤ left'.start ∧
      ∀ o, m.held.start ≤ o → upto ≤ o → o < left'.start → f.Covers stream o := by
  have hrefilled := hf.refill upto
  obtain ⟨m', left', hdeals, hfar, hover⟩ := reaches_acts hf.toConsistent hupto
  rw [deliver_eq]
  refine ⟨_, m', left', hrefilled.deals hdeals, carryOut_hands hdeals sink, fun hnone => ?_, hfar,
    fun o ho hle hlt => (hrefilled.covers_iff o ho).mp (hover o ho hle hlt)⟩
  rcases carryOut_cases hdeals sink with ⟨-, -, hmasker⟩ | ⟨hsome, -⟩
  · exact hmasker
  · exact absurd hnone hsome

/-- What was handed on begins the rendering of whatever the stream turns out to be. -/
theorem Faithful.isPrefix_render (hf : Faithful f marker stream out m left) (hsound : f.Sound)
    (hs : f.Settled stream left.start) {whole : Bytes} (h : stream <+: whole) :
    out <+: render (f.Covers whole) marker f.consumed whole := by
  obtain ⟨more, rfl⟩ := h
  have hstart := hf.start_le
  have hbase := hf.base_le
  have hle : left.start - f.consumed ≤ stream.length := by omega
  have hout : out = render (f.Covers (stream ++ more)) marker f.consumed
      ((stream ++ more).take (left.start - f.consumed)) := by
    rw [List.take_append_of_le_length hle, hf.out_eq]
    refine render_congr fun o ho => (hs.covers_iff hsound more ?_).symm
    rw [List.length_take] at ho
    omega
  rw [hout]
  exact render_isPrefix <| List.take_prefix _ _

/-! ## One portion, and the end -/

theorem Faithful.write (hf : Faithful f marker stream out m m.held) (hsound : f.Sound)
    (hs : f.Settled stream m.held.start) (sink : Sink) (portion : Bytes) :
    ∃ piece, (m.write sink portion).Hands sink piece ∧
      ((m.write sink portion).error = none →
        Faithful f marker (stream ++ portion) (out ++ piece) (m.write sink portion).masker
            (m.write sink portion).masker.held ∧
          f.Settled (stream ++ portion) (m.write sink portion).masker.held.start) ∧
      ∀ {whole : Bytes}, stream ++ portion <+: whole →
        out ++ piece <+: render (f.Covers whole) marker f.consumed whole := by
  have habsorbed := hf.absorb hsound hs portion
  obtain ⟨piece, m', left', hfaithful, hhands, hmasker, -, hover⟩ :=
    habsorbed.deliver (Nat.sub_le _ m.lag) sink
  have hsettled : f.Settled (stream ++ portion) left'.start := by
    refine (hs.append hsound portion).delivered ?_ hover
    rw [habsorbed.finder_eq, Finder.feed_consumed, lag, hf.finder_eq, Finder.feed_longest]
  rw [write_eq]
  obtain ⟨hbegins, heq, htakes, hfits⟩ := hhands
  refine ⟨piece, ⟨hbegins, heq, htakes, hfits⟩, fun hnone => ?_,
    hfaithful.isPrefix_render hsound hsettled⟩
  dsimp only
  rw [hmasker hnone]
  exact ⟨hfaithful.keep, hsettled⟩

/-- At the end a masker hands on all that is missing, and then only the flush can fail. -/
theorem Faithful.finish (hf : Faithful f marker stream out m m.held) (sink : Sink) :
    ∃ piece, out ++ piece = render (f.Covers stream) marker f.consumed stream ∧
      (m.finish sink).out <+: piece ∧
      ((m.finish sink).error = none → (m.finish sink).out = piece) ∧
      (sink.refused = [] →
        ((m.finish sink).error = none ↔ sink.Fits piece.length ∧ sink.refusesFlush = false)) := by
  obtain ⟨piece, m', left', hfaithful, hhands, -, hfar, -⟩ :=
    hf.deliver (Nat.le_refl m.finder.consumed) sink
  rw [hf.finder_eq, Finder.feed_consumed] at hfar
  refine ⟨piece, ?_, ?_⟩
  · rw [hfaithful.out_eq, List.take_of_length_le (by omega)]
  · rw [Masker.finish]
    cases herr : (m.deliver sink m.finder.consumed).error with
    | some e =>
        refine ⟨hhands.out_isPrefix, fun hnone => ?_, fun hrefused => ?_⟩
        · exact absurd (herr.symm.trans hnone) (Option.some_ne_none e)
        · rw [← hhands.error_iff hrefused, herr]
          simp
    | none =>
        refine ⟨hhands.out_isPrefix, fun _ => hhands.out_eq herr, fun hrefused => ?_⟩
        rw [← hhands.error_iff hrefused, herr, ← (hhands.takes herr).refusesFlush_eq]
        simp [Sink.flush]

/-! ## Runs -/

/-- The portions that the masker is given up to the first that the sink refuses, which is
among them. -/
def given (m : Masker) (sink : Sink) : List Bytes → List Bytes
  | [] => []
  | portion :: rest =>
    let d := m.write sink portion
    portion :: if d.error = none then d.masker.given d.sink rest else []

theorem given_of_writeAll {sink : Sink} {portions : List Bytes}
    (h : (m.writeAll sink portions).error = none) : m.given sink portions = portions := by
  induction portions generalizing m sink with
  | nil => rfl
  | cons portion rest ih =>
      rw [given]
      cases herr : (m.write sink portion).error with
      | some e => simp [writeAll, herr] at h
      | none =>
          simp only [writeAll, herr] at h
          rw [if_pos rfl, ih h]

theorem Faithful.writeAll (hf : Faithful f marker stream out m m.held) (hsound : f.Sound)
    (hs : f.Settled stream m.held.start) (sink : Sink) (portions : List Bytes) :
    ((m.writeAll sink portions).error = none →
      Faithful f marker (stream ++ portions.flatten) (out ++ (m.writeAll sink portions).out)
        (m.writeAll sink portions).masker (m.writeAll sink portions).masker.held) ∧
      ∀ {whole : Bytes}, stream ++ (m.given sink portions).flatten <+: whole →
        out ++ (m.writeAll sink portions).out <+:
          render (f.Covers whole) marker f.consumed whole := by
  induction portions generalizing m sink stream out with
  | nil =>
      simp only [Masker.writeAll, given, List.flatten_nil, List.append_nil]
      exact ⟨fun _ => hf, fun hwhole => hf.isPrefix_render hsound hs hwhole⟩
  | cons portion rest ih =>
      obtain ⟨piece, hhands, hdone, hbegins⟩ := hf.write hsound hs sink portion
      simp only [Masker.writeAll, given]
      cases herr : (m.write sink portion).error with
      | some e =>
          refine ⟨fun hnone => absurd hnone (Option.some_ne_none e), fun hwhole => ?_⟩
          refine ((List.prefix_append_right_inj out).mpr hhands.out_isPrefix).trans (hbegins ?_)
          simpa using hwhole
      | none =>
          obtain ⟨hfaithful, hsettled⟩ := hdone herr
          rw [← hhands.out_eq herr] at hfaithful
          simpa using ih hfaithful hsettled (m.write sink portion).sink

/-- All that comes of the portions, and then of the end. -/
def session (m : Masker) (sink : Sink) (portions : List Bytes) : List Delivery :=
  let (last, rest) := m.afterAll sink portions
  m.deliveries sink portions ++ [last.finish rest]

@[simp] theorem session_nil (m : Masker) (sink : Sink) : m.session sink [] = [m.finish sink] := rfl

@[simp] theorem session_cons (m : Masker) (sink : Sink) (portion : Bytes) (rest : List Bytes) :
    m.session sink (portion :: rest) =
      m.write sink portion ::
        (m.write sink portion).masker.session (m.write sink portion).sink rest := by
  simp [session, deliveries]

theorem Faithful.session_open (hf : Faithful f marker stream out m m.held) (hsound : f.Sound)
    (hs : f.Settled stream m.held.start) {sink : Sink} (ho : sink.Open) (portions : List Bytes) :
    ∀ d ∈ m.session sink portions, d.error = none := by
  induction portions generalizing m sink stream out with
  | nil =>
      obtain ⟨piece, -, -, -, herror⟩ := hf.finish sink
      rw [session_nil, List.forall_mem_singleton]
      exact (herror ho.refused_eq).mpr ⟨ho.fits _, ho.refusesFlush_eq⟩
  | cons portion rest ih =>
      obtain ⟨piece, hhands, hdone, -⟩ := hf.write hsound hs sink portion
      have hnone := (hhands.error_iff ho.refused_eq).mpr (ho.fits _)
      obtain ⟨hfaithful, hsettled⟩ := hdone hnone
      rw [session_cons, List.forall_mem_cons]
      exact ⟨hnone, ih hfaithful hsettled (ho.takes (hhands.takes hnone))⟩

/-- A session without a refusal is what a pass does. -/
theorem session_out {sink : Sink} {portions : List Bytes}
    (h : ∀ d ∈ m.session sink portions, d.error = none) :
    let t := m.writeAll sink portions
    t.error = none ∧ (t.masker.finish t.sink).error = none ∧
      (m.session sink portions).flatMap (·.out) = t.out ++ (t.masker.finish t.sink).out := by
  induction portions generalizing m sink with
  | nil => simpa [Masker.writeAll] using h
  | cons portion rest ih =>
      rw [session_cons] at h ⊢
      obtain ⟨hfirst, hrest⟩ := List.forall_mem_cons.mp h
      obtain ⟨herr, hfinish, hout⟩ := ih hrest
      simp only [Masker.writeAll, hfirst]
      exact ⟨herr, hfinish, by rw [List.flatMap_cons, hout, List.append_assoc]⟩

theorem settled_start : f.Settled [] (start f marker).held.start := fun _ hbase hlt =>
  absurd hlt (Nat.not_lt.mpr hbase)

theorem session_render {sink : Sink} {portions : List Bytes} (hf : f.Sound)
    (h : ∀ d ∈ (start f marker).session sink portions, d.error = none) :
    ((start f marker).session sink portions).flatMap (·.out) =
      render (f.Covers portions.flatten) marker f.consumed portions.flatten := by
  obtain ⟨herr, hfinish, hout⟩ := session_out h
  have hall := ((faithful_start hf marker).writeAll hf settled_start sink portions).1 herr
  obtain ⟨piece, heq, -, hpiece, -⟩ := hall.finish ((start f marker).writeAll sink portions).sink
  rw [hout, hpiece hfinish]
  exact heq

end

end Masker

/-- However the stream is divided, what a masker hands on is the stream with each run of covered
offsets made one marker, provided that the sink refuses nothing. -/
theorem out_of_run {patterns : List Bytes} (h : [] ∉ patterns) :
    ∃ fresh, Finder.ofPatterns patterns = .ok fresh ∧
      ∀ (fed marker : Bytes) (sink : Sink) (portions : List Bytes),
        let f := (fresh.feed fed).1
        let run := (Masker.start f marker).session sink portions
        (∀ d ∈ run, d.error = none) →
          run.flatMap (·.out) =
            render (f.Covers portions.flatten) marker f.consumed portions.flatten :=
  ⟨Finder.fresh patterns, Finder.ofPatterns_eq_ok_iff.mpr ⟨h, rfl⟩, fun fed _ _ _ hok =>
    Masker.session_render ((Finder.sound_fresh h).feed fed) hok⟩

/-- The second pattern is found when the first is already hidden, and shares its marker. -/
theorem out_of_run_late_overlap :
    ∃ fresh, Finder.ofPatterns [[97, 98, 99], [98, 99, 100]] = .ok fresh ∧
      let run := (Masker.start (fresh.feed [97]).1 [35]).session {} [[98, 99], [100, 120]]
      (∀ d ∈ run, d.error = none) ∧ run.flatMap (·.out) = [35, 120] := by
  have hne : ([] : Bytes) ∉ ([[97, 98, 99], [98, 99, 100]] : List Bytes) := by decide
  obtain ⟨fresh, hfresh, hrun⟩ := out_of_run hne
  obtain rfl := (Finder.ofPatterns_eq_ok_iff.mp hfresh).2
  have hok : ∀ d ∈ (Masker.start ((Finder.fresh [[97, 98, 99], [98, 99, 100]]).feed [97]).1
      [35]).session {} [[98, 99], [100, 120]], d.error = none := by decide +kernel
  exact ⟨_, hfresh, hok, (hrun [97] [35] {} [[98, 99], [100, 120]] hok).trans (by decide +kernel)⟩

end Redaction
