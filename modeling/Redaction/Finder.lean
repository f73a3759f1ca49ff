import Redaction.SpanTable
import Redaction.Tracker

/-!
# Finding many patterns in one stream

A finder runs one tracker for each pattern over the same bytes and counts the
bytes, so that a hit is reported as a span of the whole stream. A pattern that
began in an earlier portion is reported with the portion that completes it, at
its true start.

`feed` is a fold over the bytes. Each tracker ends where it would alone, and the count
grows by the bytes read (`feed_finder`), so where the stream is divided makes no
difference to the state it leads to.
-/

namespace Redaction

structure Finder where
  trackers : List Tracker := []
  consumed : Nat := 0
deriving DecidableEq, Repr

namespace Finder

/-- The first empty pattern is refused by its position. -/
def ofPatterns (patterns : List Bytes) : Except PatternError Finder :=
  match patterns.findIdx? (·.isEmpty) with
  | some index => .error (.emptyAt index)
  | none => .ok { trackers := patterns.map ({ pattern := Pattern.ofBytes · }) }

def patternCount (f : Finder) : Nat := f.trackers.length

/-- The length of the longest pattern, 0 if there is none. -/
def longest (f : Finder) : Nat := f.trackers.foldl (fun n t => max n t.pattern.length) 0

/-- Reads one byte; the spans are those that it completes, in the order of the patterns. -/
def consume (f : Finder) (b : UInt8) : Finder × List Span :=
  let steps := f.trackers.map (·.step b)
  let consumed := f.consumed + 1
  ({ trackers := steps.map (·.1), consumed },
    steps.filterMap fun (t, hit) =>
      if hit then some (Span.endingAt consumed t.pattern.length) else none)

/-- One byte of a portion, with the spans completed so far in it. -/
def collect (acc : Finder × SpanTable) (b : UInt8) : Finder × SpanTable :=
  let (f, hits) := acc.1.consume b
  (f, acc.2.insertMany hits)

/-- Reads a portion; the table holds the spans completed in it. -/
def feed (f : Finder) (portion : Bytes) : Finder × SpanTable := portion.foldl collect (f, ∅)

/-- Reads portions one after another: the finder after each, and the spans completed in it. -/
def feedEach (f : Finder) : List Bytes → List (Finder × SpanTable)
  | [] => []
  | portion :: rest => f.feed portion :: (f.feed portion).1.feedEach rest

/-- The spans completed in any of the portions. -/
def feedAll (f : Finder) (portions : List Bytes) : SpanTable :=
  (f.feedEach portions).foldl (fun found step => found.merge step.2) ∅

/-! ## The state that a portion leads to -/

@[simp] theorem consume_finder (f : Finder) (b : UInt8) :
    (f.consume b).1 =
      { trackers := f.trackers.map fun t => (t.step b).1, consumed := f.consumed + 1 } := by
  simp [consume]

theorem foldl_collect_finder (f : Finder) (found : SpanTable) (portion : Bytes) :
    (portion.foldl collect (f, found)).1 =
      { trackers := f.trackers.map (·.after portion)
        consumed := f.consumed + portion.length } := by
  induction portion generalizing f found with
  | nil => simp
  | cons b portion ih =>
      rw [List.foldl_cons, collect, ih]
      simp [Nat.add_assoc, Nat.add_comm 1]

theorem feed_finder (f : Finder) (portion : Bytes) :
    (f.feed portion).1 =
      { trackers := f.trackers.map (·.after portion), consumed := f.consumed + portion.length } :=
  foldl_collect_finder ..

theorem feed_append_finder (f : Finder) (xs ys : Bytes) :
    (f.feed (xs ++ ys)).1 = ((f.feed xs).1.feed ys).1 := by
  simp [feed_finder, Tracker.after_append, Nat.add_assoc]

end Finder

end Redaction
