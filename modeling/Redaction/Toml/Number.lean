import Redaction.Toml.Text

/-!
# Numbers

Digits may have single underscores between them. Decimal integers have no leading
zeros; hexadecimal, octal and binary ones have a lower-case marker and no sign.
Every integer fits into 64 bits with sign.

A floating-point number has a fraction, an exponent or both. One that would round
to plus infinity is refused, while minus infinity is let pass; `inf` and `nan` can
be written out. Of an exponent only the digits up to the first that brings it to
65536 count.
-/

namespace Redaction.Toml

open Scan

/-- One digit, then digits with single underscores between them; the underscores
are left out. -/
def digits (p : Char → Bool) : Scan (List Char) := do
  let first ← satisfy p
  return first :: (← many (satisfy p <|> do char '_'; satisfy p))

def sign : Scan (Option Char) := perhaps (satisfy fun c => c == '+' || c == '-')

/-- The digits of a decimal integer. -/
def decimal : Scan (List Char) := do
  match ← peek with
  | some '0' => return [← satisfy (· == '0')]
  | _ => digits Char.isDigit

/-! ## Integers -/

/-- The largest magnitude of an integer; only negative ones reach it. -/
def magnitudeLimit : Nat := Nat.pow 2 63

def integerOf (negative : Bool) (base : Nat) (ds : List Char) : Scan Int := fun s => do
  let n ← Text.ofDigits? base magnitudeLimit ds
  guard (negative ∨ n < magnitudeLimit)
  return (if negative then -(n : Int) else n, s)

/-- An integer in another base, behind its marker. -/
def based (marker : Char) (base : Nat) : Scan Int := do
  char '0'
  char marker
  let ds ← digits fun c => match Text.hexValue? c with
    | some d => d < base
    | none => false
  integerOf false base ds

def integer : Scan Int :=
  based 'x' 16 <|> based 'o' 8 <|> based 'b' 2 <|> do
    let s ← sign
    integerOf (s == some '-') 10 (← decimal)

/-! ## Floating-point numbers -/

/-- The number that decimal digits write. -/
def decimalValue (ds : List Char) : Nat := ds.foldl (fun n c => 10 * n + (c.toNat - '0'.toNat)) 0

/-- The least value that rounds to infinity in 64-bit floating point: half a step
above the largest finite one. -/
def overflowBound : Nat := Nat.pow 2 1024 - Nat.pow 2 970

/-- How many digits the bound has. -/
def boundDigits : Nat := 309

/-- Whether the digits, with the point moved `exponent` places to the right, reach
the bound. The count of digits before the point decides unless it is that of the
bound, and then the digits behind the point change nothing. -/
def overflows (ds : List Char) (exponent : Int) : Bool :=
  let ds := ds.dropWhile (· == '0')
  let magnitude : Int := ds.length + exponent
  if ds.isEmpty || magnitude < boundDigits then false
  else if boundDigits < magnitude then true
  else
    let whole := ds.take boundDigits
    overflowBound ≤ decimalValue whole * Nat.pow 10 (boundDigits - whole.length)

/-- From here on further digits of an exponent do not count. -/
def exponentLimit : Nat := 65536

def exponentValue (ds : List Char) : Nat :=
  ds.foldl (fun n c => if n < exponentLimit then 10 * n + (c.toNat - '0'.toNat) else n) 0

def exponentPart : Scan Int := do
  discard (satisfy fun c => c == 'e' || c == 'E')
  let s ← sign
  let n := exponentValue (← digits Char.isDigit)
  return if s == some '-' then -(n : Int) else n

def fraction : Scan (List Char) := do
  char '.'
  digits Char.isDigit

/-- A floating-point number written with digits. -/
def finite : Scan Unit := do
  let s ← sign
  let whole ← decimal
  let frac ← perhaps fraction
  let exp ← perhaps exponentPart
  guard (frac.isSome || exp.isSome)
  let ds := whole ++ frac.getD []
  guard (s == some '-' || !overflows ds (exp.getD 0 - (frac.getD []).length))

def special : Scan Unit := do
  discard sign
  exactly "inf" <|> exactly "nan"

def float : Scan Unit := finite <|> special

end Redaction.Toml
