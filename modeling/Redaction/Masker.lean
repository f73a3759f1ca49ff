import Redaction.Event
import Redaction.Finder
import Redaction.Held
import Redaction.Sink

/-!
# Masking a stream while it passes

A masker hands a stream on to a sink with every range that was found replaced by
a marker. A pattern may still be completed by later bytes, so the last
`longest - 1` bytes are held back until nothing can reach them any more.

What is to be done up to an offset is planned first (`plan`): runs of bytes to be
copied and ranges to be hidden, in order. A range that begins where the last
hidden one ended continues it and gets no marker of its own, so touching matches
share one marker even when they are found in different portions.

The plan is then carried out against the sink (`carryOut`). Where the sink
refuses, carrying out stops there and then: ranges already hidden are done with,
while the bytes that were held are still held, all of them.
-/

namespace Redaction

/-! ## Plans -/

/-- Something to be done to the sink, in offsets of the stream. -/
inductive Act
  /-- Hand on the bytes from `start` up to `stop`. -/
  | copy (start stop : Nat)
  /-- Leave out a range that is reached at `reached`; `marked` if a marker stands for it. -/
  | hide (reached : Nat) (range : Range) (marked : Bool)
deriving DecidableEq, Repr

namespace Act

/-- The offset up to which the stream is dealt with when the act is done. -/
def stop : Act → Nat
  | copy _ stop => stop
  | hide _ range _ => range.stop

end Act

/-- The acts that deal with the stream from `pos` up to `upto`. The last range hidden
ended at `hiddenTo`. A range that has been begun is hidden to its end, even beyond
`upto`. -/
def plan (upto : Nat) : (pos : Nat) → (hiddenTo : Option Nat) → List Range → List Act
  | pos, _, [] => if pos < upto then [.copy pos upto] else []
  | pos, hiddenTo, r :: rest =>
    let hide (reached : Nat) :=
      .hide reached r (hiddenTo != some r.start) :: plan upto r.stop (some r.stop) rest
    if upto ≤ pos then []
    else if r.start ≤ pos then hide pos
    else if r.start < upto then .copy pos r.start :: hide r.start
    else [.copy pos upto]

/-- What is behind a range that starts at or behind the offset plays no part. -/
theorem plan_append {upto : Nat} {xs : List Range} (h : ∃ r ∈ xs, upto ≤ r.start)
    (pos : Nat) (hiddenTo : Option Nat) (ys : List Range) :
    plan upto pos hiddenTo (xs ++ ys) = plan upto pos hiddenTo xs := by
  induction xs generalizing pos hiddenTo with
  | nil => simp at h
  | cons r rest ih =>
      simp only [List.cons_append, plan]
      split
      · rfl
      · by_cases hr : upto ≤ r.start
        · simp [show ¬r.start ≤ pos by omega, show ¬r.start < upto by omega]
        · have h : ∃ r ∈ rest, upto ≤ r.start := by
            obtain ⟨x, hx, hle⟩ := h
            rcases List.mem_cons.mp hx with rfl | hx
            · contradiction
            · exact ⟨x, hx, hle⟩
          rw [ih h]

/-- Refilled, the ranges in front are enough. -/
theorem plan_refill (upto pos : Nat) (hiddenTo : Option Nat) (c : Cover) :
    plan upto pos hiddenTo (c.refill upto).front = plan upto pos hiddenTo c.toList := by
  rcases c.refill_cases upto with h | h
  · rw [← Cover.toList_refill c upto, Cover.toList, plan_append h]
  · rw [h]

/-! ## The masker -/

structure Masker where
  finder : Finder
  marker : Bytes
  /-- The bytes held back. -/
  held : Held
  /-- The ranges still to be hidden. -/
  cover : Cover := {}
  /-- Where the last hidden range ended. -/
  hiddenTo : Option Nat := none
  /-- All spans found so far. -/
  seen : SpanTable := ∅
  /-- How many bytes have been hidden. -/
  hiddenBytes : Nat := 0
deriving DecidableEq

/-- What comes of giving a masker something to do. -/
structure Delivery where
  masker : Masker
  sink : Sink
  /-- The bytes that the sink took. -/
  out : Bytes := []
  /-- The acts that were done, in order. -/
  done : List Act := []
  /-- The spans found on the way. -/
  found : SpanTable := ∅
  error : Option SinkError := none
deriving DecidableEq

namespace Masker

/-- A masker for what the finder reads from now on. -/
def start (finder : Finder) (marker : Bytes) : Masker :=
  { finder, marker, held := { start := finder.consumed } }

/-- How many bytes have to be held back. -/
def lag (m : Masker) : Nat := m.finder.longest - 1

/-- How many bytes an act hands to the sink. -/
def handedOn (m : Masker) : Act → Nat
  | .copy start stop => stop - start
  | .hide _ _ marked => if marked then m.marker.length else 0

/-- What an act hands to the sink for the bytes that it deals with. -/
def bytesFor (m : Masker) (dealtWith : Bytes) : Act → Bytes
  | .copy .. => dealtWith
  | .hide _ _ marked => if marked then m.marker else []

/-- The masker when an act is done. -/
def record (m : Masker) : Act → Masker
  | .copy .. => m
  | .hide reached range _ =>
    { m with
      cover := m.cover.dropFirst
      hiddenTo := some range.stop
      hiddenBytes := m.hiddenBytes + (range.stop - reached) }

/-- Does the acts one after another, up to the first that the sink refuses. What the acts
have not dealt with yet is `left`; the masker lets go of the rest when all are done. -/
def carryOut (m : Masker) (left : Held) (sink : Sink) : List Act → Delivery
  | [] => { masker := { m with held := left }, sink }
  | act :: acts =>
    let reply := sink.put (m.handedOn act)
    match reply.error with
    | some e =>
      { masker := m
        sink := reply.sink
        out := (m.bytesFor (left.take reply.taken) act).take reply.taken
        error := some e }
    | none =>
      let (dealtWith, left) := left.splitAt act.stop
      let d := (m.record act).carryOut left reply.sink acts
      { d with out := m.bytesFor dealtWith act ++ d.out, done := act :: d.done }

/-- Hands the stream on up to an offset. -/
def deliver (m : Masker) (sink : Sink) (upto : Nat) : Delivery :=
  let m := { m with cover := m.cover.refill upto }
  m.carryOut m.held sink (plan upto m.held.start m.hiddenTo m.cover.front)

/-- Takes a portion in, with the spans that it completes. -/
def absorb (m : Masker) (portion : Bytes) : Masker × SpanTable :=
  let (finder, found) := m.finder.feed portion
  ({ m with
      finder
      held := m.held.push portion
      seen := m.seen.merge found
      cover := found.spans.foldl (Cover.add m.held.start) m.cover }, found)

/-- Takes a portion in and hands on what no later match can reach. -/
def write (m : Masker) (sink : Sink) (portion : Bytes) : Delivery :=
  let (m, found) := m.absorb portion
  { m.deliver sink (m.finder.consumed - m.lag) with found }

/-- Hands on everything and flushes the sink. -/
def finish (m : Masker) (sink : Sink) : Delivery :=
  let d := m.deliver sink m.finder.consumed
  match d.error with
  | some _ => d
  | none =>
    let reply := d.sink.flush
    { d with sink := reply.sink, error := reply.error }

/-! ## Runs -/

/-- Gives the masker one portion after another, whether or not the sink refuses. -/
def deliveries (m : Masker) (sink : Sink) : List Bytes → List Delivery
  | [] => []
  | portion :: rest =>
    let d := m.write sink portion
    d :: d.masker.deliveries d.sink rest

/-- The masker and the sink at the end of such a run. -/
def afterAll (m : Masker) (sink : Sink) (portions : List Bytes) : Masker × Sink :=
  match (m.deliveries sink portions).getLast? with
  | some d => (d.masker, d.sink)
  | none => (m, sink)

end Masker

/-! ## Events -/

namespace Act

def event? : Act → Option Event
  | copy .. => none
  | hide _ range _ => some (.rangeHidden range)

end Act

/-- A portion with matches is reported first, then the ranges hidden. -/
def Delivery.events (d : Delivery) : List Event :=
  Event.ofFound d.found d.masker.finder.consumed ++ d.done.filterMap Act.event?

end Redaction
