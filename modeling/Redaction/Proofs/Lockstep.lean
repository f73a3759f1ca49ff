import Mathlib.Data.List.Basic
import Redaction.Proofs.Agreement

/-!
# Runs in step

Two finders that report hits at the same positions of two streams, for patterns of the same lengths,
fill the same tables, whatever the bytes are (`Finder.InStep`). And a masker plans with offsets
alone: of the bytes it holds it needs to know where they start, and of the marker nothing. So two
maskers with such finders do the same acts and stay in step, portion by portion, as long as the
portions have the same sizes and no sink refuses (`Masker.InStep.write`).

All events of a pass are made of tables, acts and offsets, and so is its tally. Passes in step
therefore tell the same about themselves (`Pass.mask_inStep`, `Pass.scan_inStep`).
-/

namespace Redaction

namespace Tracker

/-! ## The hits of the parts of a stream -/

theorem length_run (t : Tracker) (bs : Bytes) : (t.run bs).length = bs.length := by
  induction bs generalizing t with
  | nil => rfl
  | cons b bs ih => rw [run, List.length_cons, ih, List.length_cons]

theorem hits_append (t : Tracker) (xs ys : Bytes) :
    t.hits (xs ++ ys) = t.hits xs ++ ((t.after xs).hits ys).map (xs.length + ·) := by
  rw [hits, run_append, List.zipIdx_append, List.filterMap_append, length_run, Nat.zero_add]
  refine congrArg (t.hits xs ++ ·) ?_
  rw [List.zipIdx_eq_map_add, List.filterMap_map, hits, List.map_filterMap]
  refine List.filterMap_congr ?_
  rintro ⟨⟨_, hit⟩, i⟩ -
  cases hit with
  | false => rfl
  | true => rfl

theorem hits_left (t : Tracker) (xs ys : Bytes) :
    (t.hits (xs ++ ys)).filter (· < xs.length) = t.hits xs := by
  have hbehind : (((t.after xs).hits ys).map (xs.length + ·)).filter (· < xs.length) = [] := by
    rw [List.filter_map, List.map_eq_nil_iff, List.filter_eq_nil_iff]
    intro i _
    simp
  rw [hits_append, List.filter_append, hbehind, List.append_nil, List.filter_eq_self]
  intro i hi
  exact decide_eq_true (lt_length_of_mem_hits hi)

theorem hits_right (t : Tracker) (xs ys : Bytes) :
    ((t.hits (xs ++ ys)).filter (xs.length ≤ ·)).map (· - xs.length) = (t.after xs).hits ys := by
  have hfront : (t.hits xs).filter (xs.length ≤ ·) = [] := by
    rw [List.filter_eq_nil_iff]
    intro i hi
    simpa using lt_length_of_mem_hits hi
  have hbehind : (((t.after xs).hits ys).map (xs.length + ·)).filter (xs.length ≤ ·) =
      ((t.after xs).hits ys).map (xs.length + ·) := by
    rw [List.filter_eq_self]
    intro i hi
    obtain ⟨j, -, rfl⟩ := List.mem_map.mp hi
    simp
  rw [hits_append, List.filter_append, hfront, List.nil_append, hbehind, List.map_map]
  simp [Function.comp_def]

end Tracker

namespace Finder

/-- For each pattern its length and the positions of its hits in a stream. -/
def reports (f : Finder) (bs : Bytes) : List (Nat × List Nat) :=
  f.trackers.map fun t => (t.pattern.length, t.hits bs)

/-- The finders have read as much, and report the same of what each is still to read. -/
structure InStep (f : Finder) (bs : Bytes) (f' : Finder) (bs' : Bytes) : Prop where
  consumed_eq : f'.consumed = f.consumed
  reports_eq : f'.reports bs' = f.reports bs

theorem longest_eq (f : Finder) (bs : Bytes) :
    f.longest = (f.reports bs).foldl (fun n r => max n r.1) 0 := by
  rw [longest, reports, List.foldl_map]

theorem mem_hitSpans_iff_reports {f : Finder} {bs : Bytes} {s : Span} :
    s ∈ f.hitSpans bs ↔
      ∃ r ∈ f.reports bs, ∃ i ∈ r.2, s = Span.endingAt (f.consumed + i + 1) r.1 := by
  rw [mem_hitSpans, reports]
  simp only [List.mem_map, exists_exists_and_eq_and]

theorem reports_left (f : Finder) (xs ys : Bytes) :
    f.reports xs = (f.reports (xs ++ ys)).map fun r => (r.1, r.2.filter (· < xs.length)) := by
  simp only [reports, List.map_map, Function.comp_def, Tracker.hits_left]

theorem reports_right (f : Finder) (xs ys : Bytes) :
    (f.feed xs).1.reports ys = (f.reports (xs ++ ys)).map fun r =>
      (r.1, (r.2.filter (xs.length ≤ ·)).map (· - xs.length)) := by
  simp only [reports, feed_finder, List.map_map, Function.comp_def, Tracker.hits_right,
    Tracker.after_pattern]

namespace InStep

variable {f f' : Finder} {bs bs' : Bytes}

theorem longest_eq (h : f.InStep bs f' bs') : f'.longest = f.longest := by
  rw [Finder.longest_eq f' bs', Finder.longest_eq f bs, h.reports_eq]

theorem patternCount_eq (h : f.InStep bs f' bs') : f'.patternCount = f.patternCount := by
  simpa [reports, patternCount] using congrArg List.length h.reports_eq

theorem feed {xs ys xs' ys' : Bytes} (h : f.InStep (xs ++ ys) f' (xs' ++ ys'))
    (hlen : xs'.length = xs.length) :
    (f'.feed xs').2 = (f.feed xs).2 ∧ (f.feed xs).1.InStep ys (f'.feed xs').1 ys' := by
  have hleft : f'.reports xs' = f.reports xs := by
    rw [f'.reports_left xs' ys', f.reports_left xs ys, h.reports_eq, hlen]
  refine ⟨?_, ⟨?_, ?_⟩⟩
  · rw [feed_table, feed_table]
    refine SpanTable.ofList_congr fun s => ?_
    rw [mem_hitSpans_iff_reports, mem_hitSpans_iff_reports, hleft, h.consumed_eq]
  · rw [feed_consumed, feed_consumed, h.consumed_eq, hlen]
  · rw [reports_right, reports_right, h.reports_eq, hlen]

end InStep

/-- Patterns of the same lengths are refused alike; before anything is read their finders are in
step. -/
theorem ofPatterns_inStep {patterns patterns' : List Bytes}
    (h : patterns'.map List.length = patterns.map List.length) :
    (∃ cause, ofPatterns patterns = .error cause ∧ ofPatterns patterns' = .error cause) ∨
      ∃ f f', ofPatterns patterns = .ok f ∧ ofPatterns patterns' = .ok f' ∧ f.InStep [] f' [] := by
  have hempty (ps : List Bytes) :
      ps.findIdx? (·.isEmpty) = (ps.map List.length).findIdx? (· == 0) := by
    rw [List.findIdx?_map]
    refine congrArg (List.findIdx? · ps) (funext fun p => ?_)
    cases p with
    | nil => rfl
    | cons => rfl
  have hsame : patterns'.findIdx? (·.isEmpty) = patterns.findIdx? (·.isEmpty) := by
    rw [hempty, hempty, h]
  rw [ofPatterns, ofPatterns, hsame]
  cases patterns.findIdx? (·.isEmpty) with
  | some index => exact .inl ⟨_, rfl, rfl⟩
  | none =>
      refine .inr ⟨_, _, rfl, rfl, rfl, ?_⟩
      have hreports (ps : List Bytes) :
          (fresh ps).reports [] = (ps.map List.length).map (·, []) := by
        simp only [reports, fresh, List.map_map]
        rfl
      exact (hreports patterns').trans (h ▸ (hreports patterns).symm)

end Finder

/-! ## Maskers -/

/-- The maskers have got as far and are to hide the same offsets. What is not dealt with yet of the
bytes that they held starts at one offset. -/
structure Masker.InStep (m : Masker) (left : Held) (m' : Masker) (left' : Held) : Prop where
  start_eq : left'.start = left.start
  cover_eq : m'.cover = m.cover
  hiddenTo_eq : m'.hiddenTo = m.hiddenTo
  seen_eq : m'.seen = m.seen
  hiddenBytes_eq : m'.hiddenBytes = m.hiddenBytes
  consumed_eq : m'.finder.consumed = m.finder.consumed
  longest_eq : m'.finder.longest = m.finder.longest

/-- The deliveries have come to their ends, and by the same acts. -/
structure Delivery.InStep (d d' : Delivery) : Prop where
  masker : d.masker.InStep d.masker.held d'.masker d'.masker.held
  done_eq : d'.done = d.done
  found_eq : d'.found = d.found
  error_eq : d.error = none ∧ d'.error = none
  sink_open : d.sink.Open ∧ d'.sink.Open

theorem Delivery.InStep.events_eq {d d' : Delivery} (h : d.InStep d') : d'.events = d.events := by
  rw [events, events, h.found_eq, h.done_eq, h.masker.consumed_eq]

namespace Masker

section

variable {m m' : Masker} {left left' : Held} {sink sink' : Sink}

theorem inStep_start {f f' : Finder} {bs bs' : Bytes} (h : f.InStep bs f' bs')
    (marker marker' : Bytes) :
    (start f marker).InStep (start f marker).held (start f' marker') (start f' marker').held where
  start_eq := h.consumed_eq
  cover_eq := rfl
  hiddenTo_eq := rfl
  seen_eq := rfl
  hiddenBytes_eq := rfl
  consumed_eq := h.consumed_eq
  longest_eq := h.longest_eq

theorem InStep.record (h : m.InStep left m' left') (act : Act) :
    (m.record act).InStep (left.splitAt act.stop).2 (m'.record act) (left'.splitAt act.stop).2 := by
  have hstart : (left'.splitAt act.stop).2.start = (left.splitAt act.stop).2.start := by
    rw [Held.start_splitAt, Held.start_splitAt, h.start_eq]
  cases act with
  | copy => exact { h with start_eq := hstart }
  | hide reached range marked =>
      exact
        { start_eq := hstart
          cover_eq := congrArg Cover.dropFirst h.cover_eq
          hiddenTo_eq := rfl
          seen_eq := h.seen_eq
          hiddenBytes_eq := congrArg (· + (range.stop - reached)) h.hiddenBytes_eq
          consumed_eq := h.consumed_eq
          longest_eq := h.longest_eq }

theorem InStep.carryOut (h : m.InStep left m' left') (hs : sink.Open) (hs' : sink'.Open)
    (acts : List Act) :
    (m.carryOut left sink acts).InStep (m'.carryOut left' sink' acts) := by
  induction acts generalizing m m' left left' sink sink' with
  | nil => exact ⟨{ h with }, rfl, rfl, ⟨rfl, rfl⟩, hs, hs'⟩
  | cons act acts ih =>
      obtain ⟨herror, hopen⟩ := hs.put (m.handedOn act)
      obtain ⟨herror', hopen'⟩ := hs'.put (m'.handedOn act)
      have hrest := ih (h.record act) hopen hopen'
      simp only [Masker.carryOut, herror, herror']
      exact ⟨hrest.masker, congrArg (act :: ·) hrest.done_eq, hrest.found_eq, hrest.error_eq,
        hrest.sink_open⟩

theorem InStep.deliver (h : m.InStep m.held m' m'.held) (hs : sink.Open) (hs' : sink'.Open)
    (upto : Nat) : (m.deliver sink upto).InStep (m'.deliver sink' upto) := by
  have hacts : m'.acts upto = m.acts upto := by
    rw [acts, acts, h.start_eq, h.hiddenTo_eq, h.cover_eq]
  rw [deliver_eq, deliver_eq, hacts]
  refine InStep.carryOut ?_ hs hs' _
  exact { h with cover_eq := congrArg (Cover.refill · upto) h.cover_eq }

end

section

variable {m m' : Masker} {sink sink' : Sink} {portion portion' rest rest' : Bytes}

theorem InStep.absorb (h : m.InStep m.held m' m'.held)
    (hf : m.finder.InStep (portion ++ rest) m'.finder (portion' ++ rest'))
    (hlen : portion'.length = portion.length) :
    (m.absorb portion).1.InStep (m.absorb portion).1.held (m'.absorb portion').1
      (m'.absorb portion').1.held := by
  obtain ⟨hfound, hnext⟩ := hf.feed hlen
  rw [absorb_eq, absorb_eq]
  refine ⟨h.start_eq, ?_, h.hiddenTo_eq, ?_, h.hiddenBytes_eq, hnext.consumed_eq, hnext.longest_eq⟩
  · rw [hfound, h.start_eq, h.cover_eq]
  · rw [hfound, h.seen_eq]

/-- A portion of the same size keeps maskers in step whose finders are. -/
theorem InStep.write (h : m.InStep m.held m' m'.held)
    (hf : m.finder.InStep (portion ++ rest) m'.finder (portion' ++ rest'))
    (hlen : portion'.length = portion.length) (hs : sink.Open) (hs' : sink'.Open) :
    (m.write sink portion).InStep (m'.write sink' portion') ∧
      (m.write sink portion).masker.finder.InStep rest
        (m'.write sink' portion').masker.finder rest' := by
  have habsorbed := h.absorb hf hlen
  obtain ⟨hfound, hnext⟩ := hf.feed hlen
  refine ⟨?_, ?_⟩
  · have hlag : m'.lag = m.lag := by rw [lag, lag, h.longest_eq]
    rw [write_eq, write_eq, habsorbed.consumed_eq, hlag]
    exact { habsorbed.deliver hs hs' _ with found_eq := hfound }
  · rwa [(m.write_frame sink portion).1, (m'.write_frame sink' portion').1]

theorem InStep.finish (h : m.InStep m.held m' m'.held) (hs : sink.Open) (hs' : sink'.Open) :
    (m.finish sink).InStep (m'.finish sink') := by
  have hdelivered := h.deliver hs hs' m.finder.consumed
  obtain ⟨herror, herror'⟩ := hdelivered.error_eq
  obtain ⟨hopen, hopen'⟩ := hdelivered.sink_open
  rw [Masker.finish, Masker.finish, h.consumed_eq]
  simp only [herror, herror']
  obtain ⟨hflush, hflushed⟩ := hopen.flush
  obtain ⟨hflush', hflushed'⟩ := hopen'.flush
  exact ⟨hdelivered.masker, hdelivered.done_eq, hdelivered.found_eq, ⟨hflush, hflush'⟩, hflushed,
    hflushed'⟩

theorem InStep.writeAll {portions portions' : List Bytes} (h : m.InStep m.held m' m'.held)
    (hf : m.finder.InStep portions.flatten m'.finder portions'.flatten)
    (hlen : portions'.map List.length = portions.map List.length) (hs : sink.Open)
    (hs' : sink'.Open) :
    let t := m.writeAll sink portions
    let t' := m'.writeAll sink' portions'
    t.masker.InStep t.masker.held t'.masker t'.masker.held ∧ t'.events = t.events ∧
      (t.error = none ∧ t'.error = none) ∧ t.sink.Open ∧ t'.sink.Open := by
  induction portions generalizing m m' sink sink' portions' with
  | nil =>
      obtain rfl : portions' = [] := List.map_eq_nil_iff.mp hlen
      exact ⟨h, rfl, ⟨rfl, rfl⟩, hs, hs'⟩
  | cons portion rest ih =>
      cases portions' with
      | nil => cases hlen
      | cons portion' rest' =>
          obtain ⟨hportion, hrest⟩ := List.cons.inj hlen
          obtain ⟨hwrite, hnext⟩ := h.write hf hportion hs hs'
          obtain ⟨herror, herror'⟩ := hwrite.error_eq
          obtain ⟨hmasker, hevents, hnone, hopen⟩ :=
            ih hwrite.masker hnext hrest hwrite.sink_open.1 hwrite.sink_open.2
          simp only [Masker.writeAll, herror, herror']
          exact ⟨hmasker, by rw [hwrite.events_eq, hevents], hnone, hopen⟩

end

end Masker

/-! ## Passes -/

/-- The portions are of the same sizes, and reading has ended for the same reason. -/
structure Reading.InStep (r r' : Reading) : Prop where
  lengths_eq : r'.portions.map List.length = r.portions.map List.length
  failure_eq : r'.failure = r.failure

namespace Reading.InStep

variable {r r' : Reading}

theorem count_eq (h : r.InStep r') : r'.portions.length = r.portions.length := by
  simpa using congrArg List.length h.lengths_eq

theorem length_bytes_eq (h : r.InStep r') : r'.bytes.length = r.bytes.length := by
  rw [bytes, bytes, List.length_flatten, List.length_flatten, h.lengths_eq]

end Reading.InStep

/-- What the finders put in their tables, and how much they have read by then. -/
theorem Finder.InStep.feedEach {f f' : Finder} {portions portions' : List Bytes}
    (h : f.InStep portions.flatten f' portions'.flatten)
    (hlen : portions'.map List.length = portions.map List.length) :
    (f'.feedEach portions').map (fun step => (step.2, step.1.consumed)) =
      (f.feedEach portions).map fun step => (step.2, step.1.consumed) := by
  induction portions generalizing f f' portions' with
  | nil =>
      obtain rfl : portions' = [] := List.map_eq_nil_iff.mp hlen
      rfl
  | cons portion rest ih =>
      cases portions' with
      | nil => cases hlen
      | cons portion' rest' =>
          obtain ⟨hportion, hrest⟩ := List.cons.inj hlen
          obtain ⟨hfound, hnext⟩ := h.feed hportion
          rw [Finder.feedEach, Finder.feedEach, List.map_cons, List.map_cons, hfound,
            hnext.consumed_eq, ih hnext hrest]

namespace Pass

variable {settings settings' : Settings} {f f' : Finder} {sink sink' : Sink}
  {pieces pieces' : List Piece}

theorem mask_inStep
    (hr : (Reading.ofPieces settings.readSize pieces).InStep
      (Reading.ofPieces settings'.readSize pieces'))
    (hf : f.InStep (Reading.ofPieces settings.readSize pieces).bytes f'
      (Reading.ofPieces settings'.readSize pieces').bytes)
    (hs : sink.Open) (hs' : sink'.Open) :
    (mask settings' f' sink' pieces').events = (mask settings f sink pieces).events ∧
      (mask settings' f' sink' pieces').outcome = (mask settings f sink pieces).outcome := by
  obtain ⟨hmasker, hevents, ⟨herror, herror'⟩, hopen, hopen'⟩ :=
    (Masker.inStep_start hf (Bytes.ofText settings.marker) (Bytes.ofText settings'.marker)).writeAll
      hf hr.lengths_eq hs hs'
  simp only [mask, herror, herror', hr.failure_eq]
  cases (Reading.ofPieces settings.readSize pieces).failure with
  | some reason => exact ⟨hevents, rfl⟩
  | none =>
      have hlast := hmasker.finish hopen hopen'
      obtain ⟨hnone, hnone'⟩ := hlast.error_eq
      simp only [hnone, hnone', hevents, hlast.events_eq, hr.count_eq, hr.length_bytes_eq,
        hmasker.seen_eq, hmasker.hiddenBytes_eq, and_self]

theorem scan_inStep
    (hr : (Reading.ofPieces settings.readSize pieces).InStep
      (Reading.ofPieces settings'.readSize pieces'))
    (hf : f.InStep (Reading.ofPieces settings.readSize pieces).bytes f'
      (Reading.ofPieces settings'.readSize pieces').bytes)
    (hs : sink.Open) (hs' : sink'.Open) :
    (scan settings' f' sink' pieces').events = (scan settings f sink pieces).events ∧
      (scan settings' f' sink' pieces').outcome = (scan settings f sink pieces).outcome := by
  have hsteps := hf.feedEach hr.lengths_eq
  -- Of the steps only the tables are put together, and the events tell what is in them.
  have hfound (steps : List (Finder × SpanTable)) :
      steps.foldl (fun found step => found.merge step.2) (∅ : SpanTable) =
        (steps.map fun step => (step.2, step.1.consumed)).foldl
          (fun found r => found.merge r.1) ∅ := by
    rw [List.foldl_map]
  have hevents (steps : List (Finder × SpanTable)) :
      (steps.flatMap fun step => Event.ofFound step.2 step.1.consumed) =
        (steps.map fun step => (step.2, step.1.consumed)).flatMap
          fun r => Event.ofFound r.1 r.2 := by
    rw [List.flatMap_map]
  have hput (sizes : List Nat) := (hs.putAll sizes).1
  have hput' (sizes : List Nat) := (hs'.putAll sizes).1
  have hflush (sizes : List Nat) := (hs.putAll sizes).2.2.flush.1
  have hflush' (sizes : List Nat) := (hs'.putAll sizes).2.2.flush.1
  simp only [scan, hfound, hevents, hsteps, hr.failure_eq]
  cases (Reading.ofPieces settings.readSize pieces).failure with
  | some cause => exact ⟨rfl, rfl⟩
  | none =>
      simp only [hput, hput', hflush, hflush', Option.or_none, hr.count_eq, hr.length_bytes_eq,
        and_self]

end Pass

end Redaction
