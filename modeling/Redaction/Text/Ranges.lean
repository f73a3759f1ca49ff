/-!
# Ranges of code points

A class of characters is given by inclusive ranges of code points whose lower ends
ascend. A look-up ends at the first range that begins behind the code point, since
none of the ranges that it leaves out holds it.
-/

namespace Redaction.Text

/-- Whether a range holds the code point; the lower ends ascend. -/
def inRanges (code : Nat) : List (Nat × Nat) → Bool
  | [] => false
  | (low, high) :: rest =>
    if code < low then false
    else if code ≤ high then true
    else inRanges code rest

end Redaction.Text
