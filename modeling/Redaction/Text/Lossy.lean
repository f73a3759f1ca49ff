import Redaction.Bytes

/-!
# Showing bytes that may not be text

`lossy` reads UTF-8 and puts the replacement character for what is not. A sequence
that is broken off counts as one unit up to the byte that does not belong to it.
-/

namespace Redaction.Text

/-- The bounds of the bytes that must follow a byte; none if it cannot lead. -/
def followers (lead : UInt8) : List (UInt8 × UInt8) :=
  let more : UInt8 × UInt8 := (0x80, 0xBF)
  if lead < 0xC2 then []
  else if lead < 0xE0 then [more]
  else if lead = 0xE0 then [(0xA0, 0xBF), more]
  else if lead = 0xED then [(0x80, 0x9F), more]
  else if lead < 0xF0 then [more, more]
  else if lead = 0xF0 then [(0x90, 0xBF), more, more]
  else if lead < 0xF4 then [more, more, more]
  else if lead = 0xF4 then [(0x80, 0x8F), more, more]
  else []

/-- How many of the bytes that must follow do. -/
def countFollowing : List (UInt8 × UInt8) → Bytes → Nat
  | (low, high) :: bounds, b :: rest =>
    if low ≤ b ∧ b ≤ high then countFollowing bounds rest + 1 else 0
  | _, _ => 0

/-- The code point that a lead byte and its followers write. -/
def codePoint (lead : UInt8) (following : Bytes) : Nat :=
  following.foldl (fun n b => 64 * n + b.toNat % 64) (lead.toNat % Nat.pow 2 (6 - following.length))

/-- The character that the bytes begin with. -/
def firstChar? : Bytes → Option Char
  | [] => none
  | b :: rest =>
    if b < 0x80 then some (Char.ofNat b.toNat)
    else
      let bounds := followers b
      if bounds ≠ [] ∧ countFollowing bounds rest = bounds.length then
        some (Char.ofNat (codePoint b (rest.take bounds.length)))
      else none

def lossyChars : Bytes → List Char
  | [] => []
  | b :: rest =>
    (firstChar? (b :: rest)).getD '\uFFFD' ::
      lossyChars (rest.drop (countFollowing (followers b) rest))
termination_by bs => bs.length
decreasing_by simp only [List.length_drop, List.length_cons]; omega

def lossy (bs : Bytes) : String := String.ofList (lossyChars bs)

end Redaction.Text
