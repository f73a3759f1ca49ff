/-!
# Digits of any base

Numbers are written in digits of a base up to 16, in letters of either case, and a
character can be given by its code point in hexadecimal digits. Surrogates and what
lies behind the last code point are no characters.
-/

namespace Redaction.Text

def hexValue? (c : Char) : Option Nat :=
  if '0' ≤ c ∧ c ≤ '9' then some (c.toNat - '0'.toNat)
  else if 'a' ≤ c ∧ c ≤ 'f' then some (c.toNat - 'a'.toNat + 10)
  else if 'A' ≤ c ∧ c ≤ 'F' then some (c.toNat - 'A'.toNat + 10)
  else none

/-- The number that digits of the given base write, unless it is larger than `limit`. -/
def ofDigits? (base limit : Nat) (digits : List Char) : Option Nat :=
  digits.foldlM (fun n c => do
    let d ← hexValue? c
    guard (d < base ∧ base * n + d ≤ limit)
    return base * n + d) 0

/-- The largest code point. -/
def codePointLimit : Nat := 0x10FFFF

/-- The character whose code point hexadecimal digits write. -/
def charOfHex? (digits : List Char) : Option Char := do
  let code ← ofDigits? 16 codePointLimit digits
  if code.isValidChar then some (Char.ofNat code) else none

end Redaction.Text
