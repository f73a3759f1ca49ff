import Redaction.Proofs.Agreement
import Redaction.Proofs.Longest

/-!
# What a report gives back

A scan writes the table merged from all portions (`Pass.scan_eq_feedAll`), in a text that follows
the grammar of reports and that is read as the spans which were written. So nothing of the table is
lost, and two scans write the same just when their tables are equal. This is the main result,
`report_lossless`; it asks for an input that can be read, a sink that refuses nothing, and a buffer
that can be had. Without the buffer nothing is written.
-/

namespace Redaction

theorem Bytes.ofText_inj {a b : String} : ofText a = ofText b ↔ a = b := by
  refine ⟨fun h => ?_, congrArg _⟩
  have hread := congrArg toText? h
  rw [toText?_ofText, toText?_ofText] at hread
  exact Option.some.inj hread

variable {sink : Sink} {pieces : List Piece}

/-- What a scan writes is the table merged from its portions. -/
theorem Pass.scan_eq_feedAll {settings : Settings} (f : Finder) (ho : sink.Open)
    (hsize : settings.readSize ≤ Reading.bufferLimit) (h : Piece.Readable pieces) :
    let found := f.feedAll (Reading.ofPieces settings.readSize pieces).portions
    found = SpanTable.ofList (f.hitSpans (Piece.delivered pieces)) ∧
      (scan settings f sink pieces).out = Bytes.ofText (Span.jsonArray found.spans) := by
  have hfound := f.feedAll_ofPieces hsize h
  obtain ⟨-, hout⟩ := scan_of_readable f ho hsize h
  intro found
  refine ⟨hfound.trans (f.feed_table _), ?_⟩
  rw [hout, ← hfound]

/-- A scan whose input has no failing read and whose output is taken writes its merged table, and
nothing of it is lost. The text follows the grammar; what is read from it are the spans of the
table, in ascending order, no start twice. They are the longest of all that were hit at their
starts, and no start is missing. The tally counts them. And two scans write the same just when
their tables are equal. This holds for every size of read for which there is a buffer; for any other
a scan reads and writes nothing. -/
theorem report_lossless (settings : Settings) (f : Finder) (ho : sink.Open)
    (h : Piece.Readable pieces) :
    let hits := f.hitSpans (Piece.delivered pieces)
    let found := f.feedAll (Reading.ofPieces settings.readSize pieces).portions
    let scanned := Pass.scan settings f sink pieces
    (settings.readSize ≤ Reading.bufferLimit →
      ∃ (text : String) (spans : List Span) (tally : Tally),
        scanned.outcome = .ok tally ∧
        scanned.out = Bytes.ofText text ∧
        Report.IsArray text.toList ∧
        Report.array? text.toList = some spans ∧
        found.spans = spans ∧
        spans.Pairwise (fun a b => a.offset < b.offset) ∧
        (∀ s, s ∈ spans ↔ s ∈ hits ∧ ∀ x ∈ hits, x.offset = s.offset → x.length ≤ s.length) ∧
        (∀ o, (∃ s ∈ spans, s.offset = o) ↔ ∃ s ∈ hits, s.offset = o) ∧
        tally.spans = spans.length ∧
        ∀ (settings' : Settings) (f' : Finder) (sink' : Sink) (pieces' : List Piece),
          settings'.readSize ≤ Reading.bufferLimit → sink'.Open → Piece.Readable pieces' →
          ((Pass.scan settings' f' sink' pieces').out = scanned.out ↔
            f'.feedAll (Reading.ofPieces settings'.readSize pieces').portions = found)) ∧
      (Reading.bufferLimit < settings.readSize →
        scanned.outcome = .error (.read .overflow) ∧ scanned.out = []) := by
  intro hits found scanned
  constructor
  · intro hsize
    obtain ⟨htally, -⟩ := Pass.scan_of_readable f ho hsize h
    obtain ⟨(htable : found = _), hout⟩ := Pass.scan_eq_feedAll f ho hsize h
    have hread : Report.array? (Span.jsonArray found.spans).toList = some found.spans :=
      Report.array?_eq_some_iff.mpr rfl
    refine ⟨Span.jsonArray found.spans, found.spans, _, htally, hout,
      Report.isArray_iff_array?.mpr ⟨_, hread⟩, hread, rfl, found.ascending_spans, fun s => ?_,
      fun o => ?_, ?_, ?_⟩
    · rw [htable]
      exact SpanTable.mem_spans_ofList
    · rw [htable]
      exact SpanTable.exists_offset_ofList_iff
    · rw [← found.size_eq, htable, ← f.feed_table]
    · intro settings' f' sink' pieces' hsize' ho' h'
      obtain ⟨-, hout'⟩ := Pass.scan_eq_feedAll f' ho' hsize' h'
      rw [hout', hout, Bytes.ofText_inj, Report.jsonArray_inj, SpanTable.spans_inj]
  · intro hover
    simp only [scanned, Pass.scan_of_overflow hover, and_self]

/-- The longer pattern is complete one portion after the shorter one that starts where it does. Read
as a whole the input comes to the same report, and without its last byte to another. -/
theorem report_lossless_lengthened :
    let f := Finder.fresh [[97, 98], [97, 98, 99]]
    let scanned := Pass.scan { portionSize := 2 } f {}
      [.data [120, 97, 98], .interrupted, .data [99, 32, 97], .data [98]]
    ∃ text tally, scanned.outcome = .ok tally ∧ scanned.out = Bytes.ofText text ∧
      Report.IsArray text.toList ∧ Report.array? text.toList = some [⟨1, 3⟩, ⟨5, 2⟩] ∧
      tally.spans = 2 ∧
      (Pass.scan {} f {} [.data [120, 97, 98, 99, 32, 97, 98]]).out = scanned.out ∧
      (Pass.scan {} f {} [.data [120, 97, 98, 99, 32, 97]]).out ≠ scanned.out := by
  intro f scanned
  have hopen : ({} : Sink).Open := ⟨rfl, rfl, rfl⟩
  have hsize : ({} : Settings).readSize ≤ Reading.bufferLimit := by decide
  have hreadable : Piece.Readable
      [.data [120, 97, 98], .interrupted, .data [99, 32, 97], .data [98]] := by
    simp [Piece.Readable, Piece.beforeEnd]
  obtain ⟨hlossless, -⟩ := report_lossless { portionSize := 2 } f hopen hreadable
  obtain ⟨text, spans, tally, hok, hout, harray, hread, hspans, -, -, -, hcount, hsame⟩ :=
    hlossless (by decide)
  obtain rfl : [⟨1, 3⟩, ⟨5, 2⟩] = spans := Eq.trans (by decide +kernel) hspans
  refine ⟨text, tally, hok, hout, harray, hread, hcount, ?_, ?_⟩
  · exact (hsame {} f {} _ hsize hopen (Piece.readable_data _)).mpr (by decide +kernel)
  · exact mt (hsame {} f {} _ hsize hopen (Piece.readable_data _)).mp (by decide +kernel)

end Redaction
