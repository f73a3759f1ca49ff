import Redaction.Masker
import Redaction.Reading

/-!
# Passing a whole input through

`Pass.mask` copies an input to a sink with the secrets hidden; `Pass.scan` writes
where they are. Both read in portions and stop at the first failure, and both
count what they did.

A scan writes nothing before it has read everything, because a later portion may
bring a match with an earlier start; then it writes its report piece by piece. The
tally of a mask pass is taken when the last portion has been handed over and before
the held bytes are handed on.
-/

namespace Redaction

/-! ## Settings -/

structure Settings where
  /-- How many bytes to read at a time, as asked for; 0 leaves it to the default. -/
  portionSize : Nat := 4096
  marker : String := "<redacted>"
deriving DecidableEq, Repr

/-- How many bytes to read at a time. -/
def Settings.readSize (s : Settings) : Nat := if s.portionSize = 0 then 4096 else s.portionSize

/-! ## Results -/

inductive PassError
  | read (cause : ReadError)
  | write (cause : SinkError)
  | flush (cause : SinkError)
  | report (cause : SinkError)
deriving DecidableEq, Repr

/-- What went wrong, then what caused it, where the sink words its refusals as it likes. -/
def PassError.chain (worded : SinkError → String) : PassError → List String
  | .read cause => ["read input", cause.message]
  | .write cause => ["write output", worded cause]
  | .flush cause => ["flush output", worded cause]
  | .report cause => [worded cause]

structure Tally where
  bytesRead : Nat := 0
  portions : Nat := 0
  spans : Nat := 0
  hiddenBytes : Nat := 0
deriving DecidableEq, Repr

structure Pass where
  /-- The bytes that the sink took. -/
  out : Bytes
  events : List Event
  /-- The sink when the pass is over. -/
  sink : Sink
  outcome : Except PassError Tally

/-! ## Masking -/

/-- What comes of giving a masker one portion after another. -/
structure Transcript where
  masker : Masker
  sink : Sink
  out : Bytes := []
  events : List Event := []
  error : Option SinkError := none

/-- Gives the masker the portions, up to the first that the sink refuses. -/
def Masker.writeAll (m : Masker) (sink : Sink) : List Bytes → Transcript
  | [] => { masker := m, sink }
  | portion :: rest =>
    let d := m.write sink portion
    match d.error with
    | some _ =>
      { masker := d.masker, sink := d.sink, out := d.out, events := d.events, error := d.error }
    | none =>
      let t := d.masker.writeAll d.sink rest
      { t with out := d.out ++ t.out, events := d.events ++ t.events }

namespace Pass

def mask (settings : Settings) (finder : Finder) (sink : Sink) (pieces : List Piece) : Pass :=
  let reading := Reading.ofPieces settings.readSize pieces
  let t := (Masker.start finder (Bytes.ofText settings.marker)).writeAll sink reading.portions
  match t.error, reading.failure with
  | some e, _ =>
    { out := t.out, events := t.events, sink := t.sink, outcome := .error (.write e) }
  | none, some cause =>
    { out := t.out, events := t.events, sink := t.sink, outcome := .error (.read cause) }
  | none, none =>
    let tally : Tally :=
      { bytesRead := reading.bytes.length
        portions := reading.portions.length
        spans := t.masker.seen.size
        hiddenBytes := t.masker.hiddenBytes }
    let last := t.masker.finish t.sink
    let out := t.out ++ last.out
    let events := t.events ++ last.events
    match last.error with
    | some e => { out, events, sink := last.sink, outcome := .error (.flush e) }
    | none =>
      { out
        events := events ++ [.maskDone tally.portions]
        sink := last.sink
        outcome := .ok tally }

/-! ## Scanning -/

def scan (settings : Settings) (finder : Finder) (sink : Sink) (pieces : List Piece) : Pass :=
  let reading := Reading.ofPieces settings.readSize pieces
  let steps := finder.feedEach reading.portions
  let found := steps.foldl (fun found step => found.merge step.2) (∅ : SpanTable)
  let events := steps.flatMap fun (f, found) => Event.ofFound found f.consumed
  match reading.failure with
  | some cause => { out := [], events, sink, outcome := .error (.read cause) }
  | none =>
    let report := (Span.jsonArrayPieces found.spans).map Bytes.ofText
    let reply := sink.putAll (report.map List.length)
    let out := report.flatten.take reply.taken
    match reply.error.or reply.sink.flush.error with
    | some e => { out, events, sink := reply.sink, outcome := .error (.report e) }
    | none =>
      { out
        events
        sink := reply.sink.flush.sink
        outcome := .ok
          { bytesRead := reading.bytes.length
            portions := reading.portions.length
            spans := found.size } }

end Pass

end Redaction
