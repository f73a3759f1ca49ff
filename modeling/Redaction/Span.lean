/-!
# Spans

A span is a piece of a stream: where it starts, counted in bytes from the
beginning of the stream, and how many bytes it has.
-/

namespace Redaction

structure Span where
  offset : Nat
  length : Nat
deriving DecidableEq, Repr

namespace Span

/-- The offset just behind the span. -/
def stop (s : Span) : Nat := s.offset + s.length

/-- The span of the given length that ends just before `stop`. -/
def endingAt (stop length : Nat) : Span := ⟨stop - length, length⟩

/-! ## Order -/

/-- Earlier starts first; of one start, shorter spans first. -/
def precedes (a b : Span) : Bool :=
  a.offset < b.offset || (a.offset == b.offset && a.length ≤ b.length)

def inOrder (spans : List Span) : List Span := spans.mergeSort precedes

/-- How many different spans a list holds. -/
def distinct (spans : List Span) : Nat := spans.eraseDups.length

/-! ## Written forms

A text that is written piece by piece is given by its pieces, since each of them may be refused
on its own. -/

/-- A member of a JSON object. -/
def member (name : String) (value : Nat) : List String :=
  ["\"", name, "\"", ":", toString value]

/-- The pieces of the span as a JSON object. -/
def jsonPieces (s : Span) : List String :=
  "\x7b" :: member "offset" s.offset ++ "," :: member "length" s.length ++ ["\x7d"]

/-- The span as a JSON object. -/
def json (s : Span) : String := String.join s.jsonPieces

/-- The pieces of spans as a JSON array, without blanks. -/
def jsonArrayPieces (spans : List Span) : List String :=
  "[" :: [","].intercalate (spans.map jsonPieces) ++ ["]"]

/-- Spans as a JSON array, without blanks. -/
def jsonArray (spans : List Span) : String := String.join (jsonArrayPieces spans)

/-- The span with its field names, for people who read diagnostics. -/
def describe (s : Span) : String :=
  "MatchSpan \x7b offset: " ++ toString s.offset ++ ", length: " ++ toString s.length ++ " \x7d"

end Span

end Redaction
