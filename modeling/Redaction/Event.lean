import Redaction.Cover
import Redaction.SpanTable

/-!
# What a run tells about itself

Events carry names, counts, lengths and offsets. None has a field for the bytes
of a secret or of the stream.
-/

namespace Redaction

inductive Event
  | secretSkipped (name : String)
  | noSecrets
  | secretsLoaded (names : List String)
  | finderReady (patterns longest : Nat)
  | portionMatched (spans consumed : Nat)
  | rangeHidden (range : Range)
  | maskDone (portions : Nat)
  | maskFinished (bytesRead spans hiddenBytes : Nat)
  | scanFinished (bytesRead portions spans : Nat)
deriving DecidableEq, Repr

/-- A portion is worth an event when it completes a match. -/
def Event.ofFound (found : SpanTable) (consumed : Nat) : List Event :=
  if found.isEmpty then [] else [.portionMatched found.size consumed]

end Redaction
