import Redaction.Proofs.CutOff
import Redaction.Proofs.Grammar
import Redaction.Proofs.Merging

/-!
# Masking and scanning agree

A scan merges the spans of all portions into one table. A mask pass never sees that table: it
hides the spans of each portion as they come, among them shorter ones that a later portion makes
longer. Yet it keeps the same table to count by (`Masker.seen_writeAll`, and `Finder.feedAll_eq`
for the scan), and an offset is covered when it lies in a span of that table
(`Finder.covers_iff_feed`), so the mask pass hides just what the scan reports.

What either pass comes to, when its buffer can be had, no read fails and nothing is refused, is in
`Pass.mask_of_readable` and `Pass.scan_of_readable`. It depends on what the input delivers, and
only the number of portions on how it is divided. The main result, `passes_agree`, sets two such
passes side by side, and reads the spans back from the report.
-/

namespace Redaction

instance (s : Span) : DecidablePred s.Contains := fun _ => inferInstanceAs (Decidable (_ ∧ _))

theorem SpanTable.size_eq (t : SpanTable) : t.size = t.spans.length := List.length_reverse.symm

namespace Masker

/-! ## What a masker has seen -/

/-- Handing on changes nothing about what has been read and found. -/
theorem carryOut_frame (m : Masker) (left : Held) (sink : Sink) (acts : List Act) :
    (m.carryOut left sink acts).masker.finder = m.finder ∧
      (m.carryOut left sink acts).masker.seen = m.seen := by
  induction acts generalizing m left sink with
  | nil => exact ⟨rfl, rfl⟩
  | cons act acts ih =>
      rw [carryOut]
      cases (sink.put (m.handedOn act)).error with
      | some e => exact ⟨rfl, rfl⟩
      | none =>
          obtain ⟨hfinder, hseen⟩ :=
            ih (m.record act) (left.splitAt act.stop).2 (sink.put (m.handedOn act)).sink
          cases act with
          | copy => exact ⟨hfinder, hseen⟩
          | hide => exact ⟨hfinder, hseen⟩

theorem write_frame (m : Masker) (sink : Sink) (portion : Bytes) :
    (m.write sink portion).masker.finder = (m.finder.feed portion).1 ∧
      (m.write sink portion).masker.seen = m.seen.merge (m.finder.feed portion).2 := by
  rw [write_eq, deliver_eq]
  exact carryOut_frame ..

theorem seen_writeAll {m : Masker} {sink : Sink} {portions : List Bytes}
    (h : (m.writeAll sink portions).error = none) :
    (m.writeAll sink portions).masker.seen =
      (m.finder.feedEach portions).foldl (fun found step => found.merge step.2) m.seen := by
  induction portions generalizing m sink with
  | nil => rfl
  | cons portion rest ih =>
      obtain ⟨hfinder, hseen⟩ := m.write_frame sink portion
      rw [writeAll] at h ⊢
      cases herr : (m.write sink portion).error with
      | some e => simp [herr] at h
      | none =>
          simp only [herr] at h ⊢
          rw [ih h, hfinder, hseen]
          rfl

end Masker

namespace Finder

/-- What is covered lies in the spans that are reported. -/
theorem covers_iff_feed {f : Finder} (hf : f.Sound) {stream : Bytes} {o : Nat} :
    f.Covers stream o ↔ f.consumed ≤ o ∧ (f.feed stream).2.Covers o := by
  rw [covers_iff_hitSpans hf, feed_table, SpanTable.covers_ofList]

end Finder

/-- The table merged from the portions that are read is that of the bytes delivered. -/
theorem Finder.feedAll_ofPieces (f : Finder) {settings : Settings} {pieces : List Piece}
    (hsize : settings.readSize ≤ Reading.bufferLimit) (h : Piece.Readable pieces) :
    f.feedAll (Reading.ofPieces settings.readSize pieces).portions =
      (f.feed (Piece.delivered pieces)).2 := by
  obtain ⟨-, hbytes, -⟩ := Reading.ofPieces_of_readable settings.readSize_pos hsize h
  rw [f.feedAll_eq, ← Reading.bytes, hbytes]

namespace Pass

variable {settings : Settings} {f : Finder} {sink : Sink} {pieces : List Piece}

/-! ## Passes that come to their end -/

theorem outcome_of_succeeded {p : Pass} (hp : mask settings f sink pieces = p)
    (h : p.succeeded = true) :
    let reading := Reading.ofPieces settings.readSize pieces
    let t := transcript settings f sink pieces
    p.outcome = .ok
      { bytesRead := reading.bytes.length
        portions := reading.portions.length
        spans := t.masker.seen.size
        hiddenBytes := t.masker.hiddenBytes } := by
  unfold mask at hp
  dsimp only at hp
  split at hp
  · subst hp
    cases h
  · subst hp
    cases h
  · split at hp
    · subst hp
      cases h
    · subst hp
      rfl

theorem error_transcript (h : (mask settings f sink pieces).succeeded = true) :
    (transcript settings f sink pieces).error = none := by
  rcases mask_cases (rfl : mask settings f sink pieces = _) with ⟨-, hnot, -⟩ | ⟨-, -, -, hnone, -⟩
  · cases h.symm.trans hnot
  · exact hnone

theorem mask_of_readable (hf : f.Sound) (ho : sink.Open)
    (hsize : settings.readSize ≤ Reading.bufferLimit) (h : Piece.Readable pieces) :
    let bytes := Piece.delivered pieces
    (∃ hiddenBytes, (mask settings f sink pieces).outcome = .ok
      { bytesRead := bytes.length
        portions := Piece.portionCount settings.readSize pieces
        spans := (f.feed bytes).2.size
        hiddenBytes }) ∧
      (transcript settings f sink pieces).masker.seen = (f.feed bytes).2 ∧
      (mask settings f sink pieces).out =
        render (f.Covers bytes) (Bytes.ofText settings.marker) f.consumed bytes := by
  intro bytes
  obtain ⟨-, hbytes, hcount⟩ := Reading.ofPieces_of_readable settings.readSize_pos hsize h
  have hok : (mask settings f sink pieces).succeeded = true :=
    (succeeded_iff hf ho.refused_eq).mpr ⟨⟨hsize, h⟩, ho.fits _, ho.refusesFlush_eq⟩
  have hseen : (transcript settings f sink pieces).masker.seen = (f.feed bytes).2 :=
    (Masker.seen_writeAll (error_transcript hok)).trans (f.feedAll_ofPieces hsize h)
  refine ⟨⟨(transcript settings f sink pieces).masker.hiddenBytes, ?_⟩, hseen, ?_⟩
  · rw [outcome_of_succeeded rfl hok, hbytes, hcount, hseen]
  · rw [out_of_succeeded hf hok, hbytes]

theorem scan_of_readable (f : Finder) (ho : sink.Open)
    (hsize : settings.readSize ≤ Reading.bufferLimit) (h : Piece.Readable pieces) :
    let bytes := Piece.delivered pieces
    (scan settings f sink pieces).outcome = .ok
      { bytesRead := bytes.length
        portions := Piece.portionCount settings.readSize pieces
        spans := (f.feed bytes).2.size } ∧
      (scan settings f sink pieces).out =
        Bytes.ofText (Span.jsonArray (f.feed bytes).2.spans) := by
  intro bytes
  obtain ⟨hfailure, (hbytes : _ = bytes), hcount⟩ :=
    Reading.ofPieces_of_readable settings.readSize_pos hsize h
  have hfound : _ = (f.feed bytes).2 := f.feedAll_ofPieces hsize h
  rw [Finder.feedAll] at hfound
  -- The report is put to the sink piece by piece, and the sink takes each of them.
  let report := (Span.jsonArrayPieces (f.feed bytes).2.spans).map Bytes.ofText
  obtain ⟨herror, htaken, hopen⟩ := ho.putAll (report.map List.length)
  obtain ⟨hflush, -⟩ := hopen.flush
  have hall : report.flatten.take (report.map List.length).sum = report.flatten := by
    rw [← List.length_flatten, List.take_length]
  have htext : report.flatten = Bytes.ofText (Span.jsonArray (f.feed bytes).2.spans) :=
    Bytes.flatten_map_ofText _
  simp only [scan, hfailure, hfound, hbytes, hcount, report, herror, hflush, Option.or_none,
    htaken]
  exact ⟨trivial, hall.trans htext⟩

/-- A sink that refuses nothing is as it was when a scan is over. -/
theorem open_scan (ho : sink.Open) : (scan settings f sink pieces).sink.Open := by
  have hput (sizes : List Nat) := (ho.putAll sizes).1
  have hopen (sizes : List Nat) := (ho.putAll sizes).2.2
  simp only [scan]
  cases (Reading.ofPieces settings.readSize pieces).failure with
  | some cause => exact ho
  | none =>
      simp only [hput, (hopen _).flush.1, Option.or_none]
      exact (hopen _).flush.2

/-- Without a buffer nothing is read and nothing is put out. -/
theorem scan_of_overflow (h : Reading.bufferLimit < settings.readSize) (f : Finder) (sink : Sink)
    (pieces : List Piece) :
    scan settings f sink pieces =
      { out := [], events := [], sink, outcome := .error (.read .overflow) } := by
  simp only [scan, Reading.ofPieces_of_overflow h, Finder.feedEach, List.flatMap_nil]

end Pass

/-- Passes over inputs that deliver the same bytes, however they are divided and read. Masking one
and scanning the other finds the same spans; where nothing but the marker could differ, two
masked outputs are the same, and so are two reports; and the masked output is the input with each
run of offsets that the reported spans cover made one marker. All this is so for every size of read
for which there is a buffer; for any other neither pass reads or puts out anything. -/
theorem passes_agree {patterns : List Bytes} (h : [] ∉ patterns) :
    ∃ fresh, Finder.ofPatterns patterns = .ok fresh ∧
      (∀ (settings settings' : Settings) (sink sink' : Sink) (pieces pieces' : List Piece),
        settings.readSize ≤ Reading.bufferLimit → settings'.readSize ≤ Reading.bufferLimit →
        Piece.Readable pieces → Piece.Readable pieces' →
        Piece.delivered pieces = Piece.delivered pieces' → sink.Open → sink'.Open →
        let bytes := Piece.delivered pieces
        let masked := Pass.mask settings fresh sink pieces
        let masked' := Pass.mask settings' fresh sink' pieces'
        let scanned := Pass.scan settings fresh sink pieces
        let scanned' := Pass.scan settings' fresh sink' pieces'
        ∃ (report : String) (spans : List Span) (hiddenBytes : Nat),
          masked.outcome = .ok
            { bytesRead := bytes.length
              portions := Piece.portionCount settings.readSize pieces
              spans := spans.length
              hiddenBytes } ∧
          scanned'.outcome = .ok
            { bytesRead := bytes.length
              portions := Piece.portionCount settings'.readSize pieces'
              spans := spans.length } ∧
          (Pass.transcript settings fresh sink pieces).masker.seen.spans = spans ∧
          scanned'.out = Bytes.ofText report ∧
          Report.array? report.toList = some spans ∧
          scanned.out = scanned'.out ∧
          (settings.marker = settings'.marker → masked.out = masked'.out) ∧
          masked.out =
            render (fun o => ∃ s ∈ spans, s.Contains o) (Bytes.ofText settings.marker) 0 bytes) ∧
      ∀ (settings : Settings) (sink : Sink) (pieces : List Piece),
        Reading.bufferLimit < settings.readSize →
        ∀ pass ∈ [Pass.mask settings fresh sink pieces, Pass.scan settings fresh sink pieces],
          pass.outcome = .error (.read .overflow) ∧ pass.out = [] := by
  refine ⟨Finder.fresh patterns, Finder.ofPatterns_eq_ok_iff.mpr ⟨h, rfl⟩, ?_, ?_⟩
  · intro settings settings' sink sink' pieces pieces' hsize hsize' hpieces hpieces' hsame hsink
      hsink' bytes masked masked' scanned scanned'
    have hf := Finder.sound_fresh h
    obtain ⟨⟨hiddenBytes, htally⟩, hseen, hout⟩ := Pass.mask_of_readable hf hsink hsize hpieces
    obtain ⟨-, -, hout'⟩ := Pass.mask_of_readable hf hsink' hsize' hpieces'
    obtain ⟨-, htext⟩ := Pass.scan_of_readable (.fresh patterns) hsink hsize hpieces
    obtain ⟨htally', htext'⟩ := Pass.scan_of_readable (.fresh patterns) hsink' hsize' hpieces'
    rw [← hsame] at hout' htally' htext'
    let found := ((Finder.fresh patterns).feed bytes).2
    have hsize : found.size = found.spans.length := found.size_eq
    have hhidden (o : Nat) : (Finder.fresh patterns).Covers bytes o ↔
        ∃ s ∈ found.spans, s.Contains o :=
      (Finder.covers_iff_feed hf).trans (and_iff_right (Nat.zero_le o))
    refine ⟨Span.jsonArray found.spans, found.spans, hiddenBytes, hsize ▸ htally, hsize ▸ htally',
      congrArg _ hseen, htext', Report.array?_eq_some_iff.mpr rfl, htext.trans htext'.symm,
      fun hmarker => ?_, ?_⟩
    · show (Pass.mask _ _ _ _).out = (Pass.mask _ _ _ _).out
      rw [hout, hout', hmarker]
    · show (Pass.mask _ _ _ _).out = _
      rw [hout]
      exact render_congr fun o _ => hhidden o
  · intro settings sink pieces hover pass hpass
    rcases List.mem_pair.mp hpass with rfl | rfl
    · rw [Pass.mask_of_overflow hover]
      exact ⟨rfl, rfl⟩
    · rw [Pass.scan_of_overflow hover]
      exact ⟨rfl, rfl⟩

/-- The longer pattern is complete one portion after the shorter one that starts where it does, and
a read is interrupted between them. -/
theorem passes_agree_interrupted :
    ∃ fresh, Finder.ofPatterns [[97, 98], [97, 98, 99]] = .ok fresh ∧
      let pieces : List Piece :=
        [.data [120, 97, 98], .interrupted, .data [99, 32, 97], .data [98], .data [], .data [97, 98]]
      let pieces' : List Piece := [.interrupted, .data [120, 97, 98, 99, 32, 97, 98]]
      let settings : Settings := { portionSize := 2, marker := "#" }
      let settings' : Settings := { portionSize := 0 }
      let masked := Pass.mask settings fresh {} pieces
      let scanned := Pass.scan settings' fresh {} pieces'
      (∃ hiddenBytes, masked.outcome =
          .ok { bytesRead := 7, portions := 5, spans := 2, hiddenBytes }) ∧
        scanned.outcome = .ok { bytesRead := 7, portions := 1, spans := 2 } ∧
        (∃ report, scanned.out = Bytes.ofText report ∧
          Report.array? report.toList = some [⟨1, 3⟩, ⟨5, 2⟩]) ∧
        masked.out =
          render (fun o => ∃ s ∈ ([⟨1, 3⟩, ⟨5, 2⟩] : List Span), s.Contains o) (Bytes.ofText "#") 0
            [120, 97, 98, 99, 32, 97, 98] ∧
        masked.out = [120, 35, 32, 35] := by
  have hne : ([] : Bytes) ∉ ([[97, 98], [97, 98, 99]] : List Bytes) := by decide
  obtain ⟨fresh, hfresh, hrun, -⟩ := passes_agree hne
  obtain rfl := (Finder.ofPatterns_eq_ok_iff.mp hfresh).2
  obtain ⟨report, spans, hiddenBytes, hmasked, hscanned, hseen, htext, hread, -, -, hout⟩ :=
    hrun { portionSize := 2, marker := "#" } { portionSize := 0 } {} {}
      [.data [120, 97, 98], .interrupted, .data [99, 32, 97], .data [98], .data [], .data [97, 98]]
      [.interrupted, .data [120, 97, 98, 99, 32, 97, 98]]
      (by decide) (by decide)
      (by simp [Piece.Readable, Piece.beforeEnd]) (by simp [Piece.Readable, Piece.beforeEnd])
      (by decide) ⟨rfl, rfl, rfl⟩ ⟨rfl, rfl, rfl⟩
  obtain rfl : [⟨1, 3⟩, ⟨5, 2⟩] = spans := Eq.trans (by decide +kernel) hseen
  exact ⟨_, hfresh, ⟨hiddenBytes, hmasked⟩, hscanned, ⟨report, htext, hread⟩, hout,
    hout.trans (by decide +kernel)⟩

end Redaction
