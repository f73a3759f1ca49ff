import Redaction.Text.Blank
import Redaction.Text.Digits

/-!
# Items of a regular expression

An item is what an expression is made of: a character, a set of characters that has a
name, or a place between characters. A backslash takes the meaning from a character
that has one, and gives one to some that have none.

Whether an item can be used depends on the mode. Where sets are about all scripts, what
needs to know their letters is refused: upper and lower case, named sets, and ends of
words. Where they are about ASCII, what could match a part of a character is refused.
-/

namespace Redaction.Regex

/-- How an expression is read; it can change this itself. -/
structure Mode where
  caseless : Bool := false
  /-- Sets are about the characters of all scripts. -/
  allScripts : Bool := true
  /-- Blanks and comments mean nothing. -/
  spaced : Bool := false
deriving DecidableEq, Repr

/-- The text behind blanks and comments; a comment ends with its line. -/
def dropFiller : (inComment : Bool) → List Char → List Char
  | _, [] => []
  | true, c :: rest => dropFiller (c != '\n') rest
  | false, c :: rest =>
    if Text.isBlank c then dropFiller false rest
    else if c == '#' then dropFiller true rest
    else c :: rest

/-- The text behind what means nothing. -/
def Mode.skip (m : Mode) (text : List Char) : List Char :=
  if m.spaced then dropFiller false text else text

inductive Item
  | char (c : Char)
  /-- A character given by its code in two digits. -/
  | code (c : Char)
  | anyChar
  /-- The digits, the blanks or the characters of words, or all but these. -/
  | named (complement : Bool)
  /-- An end of the text or a line or, if `ofWord`, a place that depends on words. -/
  | place (ofWord : Bool)
deriving DecidableEq, Repr

/-- A single character can be used where it can be compared: in ASCII if sets are about
ASCII, else if upper and lower case differ. -/
def Mode.compares (m : Mode) (c : Char) : Bool :=
  if m.allScripts then !m.caseless else c.toNat < 0x80

namespace Item

def isUsable (m : Mode) : Item → Bool
  | char _ => !(m.allScripts && m.caseless)
  | code c => m.compares c
  | anyChar => m.allScripts
  | named complement => !m.allScripts && !complement
  | place ofWord => !(m.allScripts && ofWord)

/-- The character that an item in brackets is, if it can be used there. -/
def char? (m : Mode) : Item → Option Char
  | char c | code c => if m.compares c then some c else none
  | _ => none

/-- The item can be used in brackets, where places mean nothing. -/
def isMember (m : Mode) : Item → Bool
  | named complement => isUsable m (named complement)
  | item => (item.char? m).isSome

end Item

/-! ## Behind a backslash -/

/-- So many hexadecimal digits. -/
def readHex (m : Mode) : (count : Nat) → List Char → Option (List Char × List Char)
  | 0, text => some ([], text)
  | count + 1, text =>
    match m.skip text with
    | [] => none
    | digit :: rest => do
      let (digits, last) ← readHex m count rest
      return (digit :: digits, last)

/-- The character whose code point is written in so many digits. -/
def readCode (m : Mode) (count : Nat) (text : List Char) : Option (Char × List Char) := do
  let (digits, rest) ← readHex m count text
  return (← Text.charOfHex? digits, rest)

/-- What a single character means behind a backslash. -/
def escape? : Char → Option Item
  | 'a' => some (.char '\x07')
  | 'f' => some (.char '\x0c')
  | 'n' => some (.char '\n')
  | 'r' => some (.char '\r')
  | 't' => some (.char '\t')
  | 'v' => some (.char '\x0b')
  | 'd' | 's' | 'w' => some (.named false)
  | 'D' | 'S' | 'W' => some (.named true)
  | 'A' | 'z' => some (.place false)
  | 'b' | 'B' | '<' | '>' => some (.place true)
  | c => if c.toNat < 0x80 ∧ ¬ c.isAlphanum then some (.char c) else none

def readEscape (m : Mode) : List Char → Option (Item × List Char)
  | [] => none
  | 'x' :: rest => do
    let (c, last) ← readCode m 2 rest
    return (.code c, last)
  | 'u' :: rest => do
    let (c, last) ← readCode m 4 rest
    return (.char c, last)
  | 'U' :: rest => do
    let (c, last) ← readCode m 8 rest
    return (.char c, last)
  | c :: rest => (escape? c).map (·, rest)

end Redaction.Regex
