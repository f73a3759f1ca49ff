/-!
# Blanks

The characters with the property White_Space: spaces, the characters that move to
another place, and the spaces of other scripts.
-/

namespace Redaction.Text

def isBlank (c : Char) : Bool :=
  let n := c.toNat
  (0x09 ≤ n && n ≤ 0x0D) || (0x2000 ≤ n && n ≤ 0x200A) ||
    [0x20, 0x85, 0xA0, 0x1680, 0x2028, 0x2029, 0x202F, 0x205F, 0x3000].contains n

end Redaction.Text
