/-!
# Reading decimal numbers

A number is at least one decimal digit, perhaps behind a plus sign, and has an upper
limit. The digits are read from the left and the first thing wrong decides the
error; a character that is no digit is noticed before the size of the number with it.

A floating-point number (`isFloat`) may have a sign, a fraction and an exponent.
-/

namespace Redaction.Text

inductive DecimalError
  | empty
  | badDigit
  | tooLarge
deriving DecidableEq, Repr

def DecimalError.message : DecimalError → String
  | .empty => "cannot parse integer from empty string"
  | .badDigit => "invalid digit found in string"
  | .tooLarge => "number too large to fit in target type"

/-- Reads digits behind those that write `n`. -/
def readDigits (limit : Nat) : (n : Nat) → List Char → Except DecimalError Nat
  | n, [] => .ok n
  | n, c :: rest =>
    if c.isDigit then
      let m := 10 * n + (c.toNat - '0'.toNat)
      if m ≤ limit then readDigits limit m rest else .error .tooLarge
    else .error .badDigit

def readDecimal (limit : Nat) (text : String) : Except DecimalError Nat :=
  match text.toList with
  | [] => .error .empty
  | ['+'] => .error .badDigit
  | '+' :: digits => readDigits limit 0 digits
  | digits => readDigits limit 0 digits

/-- The largest number of one machine word. -/
def wordLimit : Nat := Nat.pow 2 64 - 1

/-! ## Floating-point numbers -/

def dropSign : List Char → List Char
  | '+' :: rest | '-' :: rest => rest
  | text => text

/-- An exponent or nothing. -/
def isExponent : List Char → Bool
  | [] => true
  | c :: rest =>
    let digits := dropSign rest
    (c == 'e' || c == 'E') && !digits.isEmpty && digits.all Char.isDigit

/-- Digits, perhaps with a point before, among or behind them and an exponent, or a word
for infinity or for no number in letters of any case. -/
def isFloat (text : List Char) : Bool :=
  let unsigned := dropSign text
  let whole := unsigned.takeWhile Char.isDigit
  let (fraction, rest) := match unsigned.drop whole.length with
    | '.' :: behind => (behind.takeWhile Char.isDigit, behind.dropWhile Char.isDigit)
    | behind => ([], behind)
  (!(whole ++ fraction).isEmpty && isExponent rest) ||
    ["inf", "infinity", "nan"].contains (String.ofList unsigned).toLower

end Redaction.Text
