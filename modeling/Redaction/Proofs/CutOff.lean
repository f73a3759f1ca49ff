import Redaction.Proofs.Masking
import Redaction.Proofs.Pieces

/-!
# A pass that is cut off

A pass can end early: a read fails, or the sink refuses; or it does not begin, because the buffer to
read into cannot be had (`Pass.mask_of_overflow`). What the sink has got by then begins
the output for every input that begins with the bytes given to the masker so far, because
the masker hands on only what no later byte can change (`Masker.Faithful.writeAll`).

A pass that comes to the end of its input hands on the held bytes as well. That is right for
the bytes it has read and for no others, since a match that more bytes might have completed
is then known not to come.

How far a sink with little room lets a pass get is a matter of lengths alone: it succeeds just
when all that it has to hand on fits (`Masker.Faithful.writeAll_takes`).
-/

namespace Redaction

namespace Masker

/-- The portions are all taken if the whole rendering fits, and when they are, the sink has as
much less room as was handed on. -/
theorem Faithful.writeAll_takes {f : Finder} {marker stream out : Bytes} {m : Masker}
    (hf : Faithful f marker stream out m m.held) (hsound : f.Sound)
    (hs : f.Settled stream m.held.start) {full sink : Sink} (hrefused : full.refused = [])
    (htakes : full.Takes out.length sink) (portions : List Bytes) :
    (full.Fits (render (f.Covers (stream ++ portions.flatten)) marker f.consumed
        (stream ++ portions.flatten)).length → (m.writeAll sink portions).error = none) ∧
      ((m.writeAll sink portions).error = none →
        full.Takes (out ++ (m.writeAll sink portions).out).length
          (m.writeAll sink portions).sink) := by
  induction portions generalizing m sink stream out with
  | nil =>
      rw [Masker.writeAll, List.append_nil]
      exact ⟨fun _ => rfl, fun _ => htakes⟩
  | cons portion rest ih =>
      obtain ⟨piece, hhands, hdone, hbegins⟩ := hf.write hsound hs sink portion
      have herror := hhands.error_iff (htakes.refused_eq.trans hrefused)
      rw [List.flatten_cons, ← List.append_assoc, Masker.writeAll]
      cases herr : (m.write sink portion).error with
      | some e =>
          refine ⟨fun hfits => ?_, fun hnone => absurd hnone (Option.some_ne_none e)⟩
          have hlen := (hbegins (List.prefix_append _ rest.flatten)).length_le
          rw [List.length_append] at hlen
          have hpiece := htakes.fits_add.mp (hfits.mono hlen)
          rw [herror.mpr hpiece] at herr
          cases herr
      | none =>
          obtain ⟨hfaithful, hsettled⟩ := hdone herr
          have hnext := htakes.trans (hhands.takes herr)
          rw [← List.length_append] at hnext
          rw [hhands.out_eq herr, ← List.append_assoc]
          exact ih hfaithful hsettled hnext

end Masker

theorem Settings.readSize_pos (settings : Settings) : 0 < settings.readSize := by
  unfold readSize
  split
  · decide
  · omega

namespace Pass

variable {settings : Settings} {f : Finder} {sink : Sink} {pieces : List Piece}

/-! ## What a pass has done when it ends -/

/-- What comes of the portions, before the end of the input is known. -/
def transcript (settings : Settings) (f : Finder) (sink : Sink) (pieces : List Piece) :
    Transcript :=
  (Masker.start f (Bytes.ofText settings.marker)).writeAll sink
    (Reading.ofPieces settings.readSize pieces).portions

/-- The bytes given to the masker by the time the pass ends. -/
def given (settings : Settings) (f : Finder) (sink : Sink) (pieces : List Piece) : Bytes :=
  ((Masker.start f (Bytes.ofText settings.marker)).given sink
    (Reading.ofPieces settings.readSize pieces).portions).flatten

/-- A read failed, or the sink refused a portion. -/
def stopped (p : Pass) : Bool :=
  match p.outcome with
  | .error (.read _) => true
  | .error (.write _) => true
  | _ => false

def succeeded (p : Pass) : Bool := p.outcome.isOk

theorem mask_cases {p : Pass} (hp : mask settings f sink pieces = p) :
    let t := transcript settings f sink pieces
    let last := t.masker.finish t.sink
    let failure := (Reading.ofPieces settings.readSize pieces).failure
    (p.stopped = true ∧ p.succeeded = false ∧ p.out = t.out ∧ ¬(t.error = none ∧ failure = none)) ∨
      (p.stopped = false ∧ (p.succeeded = true ↔ last.error = none) ∧ p.out = t.out ++ last.out ∧
        t.error = none ∧ failure = none) := by
  intro t last failure
  unfold mask at hp
  dsimp only at hp
  split at hp
  · rename_i e herr
    subst hp
    refine .inl ⟨rfl, rfl, rfl, fun hnone => ?_⟩
    exact absurd (herr.symm.trans hnone.1) (Option.some_ne_none e)
  · rename_i reason _ hfailure
    subst hp
    refine .inl ⟨rfl, rfl, rfl, fun hnone => ?_⟩
    exact absurd (hfailure.symm.trans hnone.2) (Option.some_ne_none reason)
  · rename_i hnone hfailure
    refine .inr ?_
    split at hp
    · rename_i e herr
      subst hp
      refine ⟨rfl, iff_of_false Bool.false_ne_true fun hlast => ?_, rfl, hnone, hfailure⟩
      exact absurd (herr.symm.trans hlast) (Option.some_ne_none e)
    · rename_i herr
      subst hp
      exact ⟨rfl, iff_of_true rfl herr, rfl, hnone, hfailure⟩

/-- Without a buffer nothing is read and nothing is put out. -/
theorem mask_of_overflow (h : Reading.bufferLimit < settings.readSize) (f : Finder) (sink : Sink)
    (pieces : List Piece) :
    mask settings f sink pieces =
      { out := [], events := [], sink, outcome := .error (.read .overflow) } := by
  simp only [mask, Reading.ofPieces_of_overflow h, Masker.writeAll]

/-! ## What the sink has got -/

theorem faithful_transcript (hf : f.Sound)
    (h : (transcript settings f sink pieces).error = none) :
    Masker.Faithful f (Bytes.ofText settings.marker)
      (Reading.ofPieces settings.readSize pieces).bytes (transcript settings f sink pieces).out
      (transcript settings f sink pieces).masker (transcript settings f sink pieces).masker.held :=
  ((Masker.faithful_start hf _).writeAll hf Masker.settled_start sink _).1 h

theorem transcript_isPrefix (hf : f.Sound) {whole : Bytes}
    (h : given settings f sink pieces <+: whole) :
    (transcript settings f sink pieces).out <+:
      render (f.Covers whole) (Bytes.ofText settings.marker) f.consumed whole :=
  ((Masker.faithful_start hf _).writeAll hf Masker.settled_start sink _).2 h

theorem transcript_takes (hf : f.Sound) (hrefused : sink.refused = []) :
    let bytes := (Reading.ofPieces settings.readSize pieces).bytes
    (sink.Fits (render (f.Covers bytes) (Bytes.ofText settings.marker) f.consumed bytes).length →
        (transcript settings f sink pieces).error = none) ∧
      ((transcript settings f sink pieces).error = none →
        sink.Takes (transcript settings f sink pieces).out.length
          (transcript settings f sink pieces).sink) :=
  (Masker.faithful_start hf _).writeAll_takes hf Masker.settled_start hrefused (.refl sink) _

theorem out_isPrefix_of_stopped (hf : f.Sound)
    (hstopped : (mask settings f sink pieces).stopped = true) {whole : Bytes}
    (h : given settings f sink pieces <+: whole) :
    (mask settings f sink pieces).out <+:
      render (f.Covers whole) (Bytes.ofText settings.marker) f.consumed whole := by
  rcases mask_cases (rfl : mask settings f sink pieces = _) with ⟨-, -, hout, -⟩ | ⟨hnot, -⟩
  · rw [hout]
    exact transcript_isPrefix hf h
  · cases hstopped.symm.trans hnot

/-- A pass that is not stopped has given all that was read to the masker, and hands on the
rendering of it unless the sink refuses at the end. -/
theorem out_of_not_stopped (hf : f.Sound)
    (hstopped : (mask settings f sink pieces).stopped = false) :
    let bytes := (Reading.ofPieces settings.readSize pieces).bytes
    let text := render (f.Covers bytes) (Bytes.ofText settings.marker) f.consumed bytes
    given settings f sink pieces = bytes ∧ (mask settings f sink pieces).out <+: text ∧
      ((mask settings f sink pieces).succeeded = true → (mask settings f sink pieces).out = text) := by
  intro bytes text
  rcases mask_cases (rfl : mask settings f sink pieces = _) with
    ⟨hyes, -⟩ | ⟨-, hok, hout, hnone, -⟩
  · cases hstopped.symm.trans hyes
  · obtain ⟨piece, hall, hbegins, heq, -⟩ :=
      (faithful_transcript hf hnone).finish (transcript settings f sink pieces).sink
    rw [hout, show text = _ from hall.symm]
    exact ⟨congrArg List.flatten (Masker.given_of_writeAll hnone),
      (List.prefix_append_right_inj _).mpr hbegins, fun h => congrArg _ (heq (hok.mp h))⟩

theorem out_of_succeeded (hf : f.Sound)
    (h : (mask settings f sink pieces).succeeded = true) :
    (mask settings f sink pieces).out =
      render (f.Covers (Reading.ofPieces settings.readSize pieces).bytes)
        (Bytes.ofText settings.marker) f.consumed
        (Reading.ofPieces settings.readSize pieces).bytes := by
  rcases mask_cases (rfl : mask settings f sink pieces = _) with ⟨-, hnot, -⟩ | ⟨hstopped, -⟩
  · cases h.symm.trans hnot
  · exact (out_of_not_stopped hf hstopped).2.2 h

/-- A sink that refuses only for want of room lets the pass succeed just when it has room for the
whole rendering. -/
theorem succeeded_iff (hf : f.Sound) (hrefused : sink.refused = []) :
    let bytes := (Reading.ofPieces settings.readSize pieces).bytes
    (mask settings f sink pieces).succeeded = true ↔
      (settings.readSize ≤ Reading.bufferLimit ∧ Piece.Readable pieces) ∧
        sink.Fits (render (f.Covers bytes) (Bytes.ofText settings.marker) f.consumed
          bytes).length ∧
        sink.refusesFlush = false := by
  intro bytes
  rw [← Reading.failure_eq_none_iff settings.readSize_pos]
  obtain ⟨hfits, htakes⟩ := @transcript_takes settings f sink pieces hf hrefused
  rcases mask_cases (rfl : mask settings f sink pieces = _) with
    ⟨-, hfailed, -, hnot⟩ | ⟨-, hok, -, hnone, hfailure⟩
  · rw [hfailed]
    exact iff_of_false Bool.false_ne_true fun ⟨hfailure, hall, _⟩ => hnot ⟨hfits hall, hfailure⟩
  · obtain ⟨piece, hwhole, -, -, herror⟩ :=
      (faithful_transcript hf hnone).finish (transcript settings f sink pieces).sink
    have htaken := htakes hnone
    rw [hok, herror (htaken.refused_eq.trans hrefused), htaken.refusesFlush_eq,
      ← htaken.fits_add, ← List.length_append, hwhole]
    exact (and_iff_right hfailure).symm

end Pass

/-- What a sink has got when a pass ends, whatever ended it. Of a pass that stopped while it read
it is a beginning of the output for every input that begins with the bytes given to the masker;
else it is a beginning of the output for the bytes that were read. A pass whose sink refuses only
for want of room succeeds just when the buffer can be had, no read fails, and all fits. -/
theorem out_of_cut_off_pass {patterns : List Bytes} (h : [] ∉ patterns) :
    ∃ fresh, Finder.ofPatterns patterns = .ok fresh ∧
      ∀ (fed : Bytes) (settings : Settings) (sink : Sink) (pieces : List Piece),
        let f := (fresh.feed fed).1
        let p := Pass.mask settings f sink pieces
        let given := Pass.given settings f sink pieces
        let read := (Reading.ofPieces settings.readSize pieces).bytes
        (∀ (settings' : Settings) (sink' : Sink) (pieces' : List Piece),
          let whole := Pass.mask settings' f sink' pieces'
          let bytes := (Reading.ofPieces settings'.readSize pieces').bytes
          settings'.marker = settings.marker → whole.succeeded = true →
            (given <+: bytes → (Pass.transcript settings f sink pieces).out <+: whole.out ∧
              (p.stopped = true → p.out <+: whole.out)) ∧
            (p.stopped = false → given = bytes → p.out <+: whole.out)) ∧
        (sink.refused = [] →
          (p.succeeded = true ↔
            (settings.readSize ≤ Reading.bufferLimit ∧ Piece.Readable pieces) ∧
              sink.Fits (render (f.Covers read) (Bytes.ofText settings.marker) f.consumed
                read).length ∧
              sink.refusesFlush = false)) ∧
        (Reading.bufferLimit < settings.readSize →
          p.outcome = .error (.read .overflow) ∧ p.out = []) := by
  refine ⟨Finder.fresh patterns, Finder.ofPatterns_eq_ok_iff.mpr ⟨h, rfl⟩, ?_⟩
  intro fed settings sink pieces f p given read
  have hf : f.Sound := (Finder.sound_fresh h).feed fed
  have hoverflow (hover : Reading.bufferLimit < settings.readSize) :
      p.outcome = .error (.read .overflow) ∧ p.out = [] := by
    simp only [p, Pass.mask_of_overflow hover, and_self]
  refine ⟨?_, Pass.succeeded_iff hf, hoverflow⟩
  intro settings' sink' pieces' whole bytes hmarker hok
  have hwhole : whole.out = _ := Pass.out_of_succeeded hf hok
  rw [hwhole, hmarker]
  refine ⟨fun hbytes => ⟨Pass.transcript_isPrefix hf hbytes, fun hstopped => ?_⟩, ?_⟩
  · exact Pass.out_isPrefix_of_stopped hf hstopped hbytes
  · intro hstopped hbytes
    obtain ⟨hgiven, hout, -⟩ := Pass.out_of_not_stopped hf hstopped
    rwa [← hgiven, show Pass.given settings f sink pieces = bytes from hbytes] at hout

/-- There is room for what stands before the secret, and none for its marker. -/
theorem out_of_cut_off_pass_full :
    ∃ fresh, Finder.ofPatterns [[97, 98, 99]] = .ok fresh ∧
      let settings : Settings := { marker := "#" }
      let p := Pass.mask settings fresh { room := some 2 } [.data [120, 120, 97, 98], .data [99]]
      let whole := Pass.mask settings fresh {} [.data [120, 120, 97, 98, 99, 100]]
      p.stopped = true ∧ p.succeeded = false ∧ p.out = [120, 120] ∧ p.out <+: whole.out := by
  have hne : ([] : Bytes) ∉ ([[97, 98, 99]] : List Bytes) := by decide
  obtain ⟨fresh, hfresh, hrun⟩ := out_of_cut_off_pass hne
  obtain rfl := (Finder.ofPatterns_eq_ok_iff.mp hfresh).2
  obtain ⟨hbegins, -⟩ := hrun [] { marker := "#" } { room := some 2 }
    [.data [120, 120, 97, 98], .data [99]]
  obtain ⟨hbefore, -⟩ := hbegins { marker := "#" } {} [.data [120, 120, 97, 98, 99, 100]] rfl
    (by decide +kernel)
  obtain ⟨-, hout⟩ := hbefore (by decide +kernel)
  exact ⟨_, hfresh, by decide +kernel, by decide +kernel, by decide +kernel,
    hout (by decide +kernel)⟩

/-- A pass that succeeds hands on bytes that a longer input would have had hidden: it has come to
the end of its own, and nothing can complete the secret any more. -/
theorem ended_pass_shows_held_bytes :
    ∃ fresh, Finder.ofPatterns [[97, 98]] = .ok fresh ∧
      let p := Pass.mask {} fresh { room := some 100 } [.data [97]]
      let whole := Pass.mask {} fresh {} [.data [97, 98]]
      p.succeeded = true ∧ whole.succeeded = true ∧
        Pass.given {} fresh { room := some 100 } [.data [97]] <+: [97, 98] ∧
        ¬p.out <+: whole.out :=
  ⟨_, Finder.ofPatterns_eq_ok_iff.mpr ⟨by decide, rfl⟩, by decide +kernel, by decide +kernel,
    by decide +kernel, by decide +kernel⟩

end Redaction
