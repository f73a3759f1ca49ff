/-!
# Scanning

A scanner reads from the front of a text and leaves the rest, or fails. `many` is for
scanners that read something: a text has room for no more of that than it has
characters, and `manyFrom` recurs on these.

Then come the parts of a document that mean nothing: blanks, line ends and
comments. A carriage return alone is no line end.
-/

namespace Redaction.Toml

abbrev Scan := StateT (List Char) Option

namespace Scan

def fail {α : Type} : Scan α := fun _ => none

/-- The next character, which stays where it is. -/
def peek : Scan (Option Char) := fun s => some (s.head?, s)

/-- Reads one character that satisfies `p`. -/
def satisfy (p : Char → Bool) : Scan Char
  | c :: rest => if p c then some (c, rest) else none
  | [] => none

def char (c : Char) : Scan Unit := do discard (satisfy (· == c))

/-- Reads a fixed text. -/
def exactly (text : String) : Scan Unit := text.toList.forM char

/-- Reads as many characters as satisfy `p`. -/
def takeWhile (p : Char → Bool) : Scan (List Char) :=
  fun s => some (s.takeWhile p, s.dropWhile p)

/-- As `takeWhile`, but at least one. -/
def takeWhile1 (p : Char → Bool) : Scan (List Char) := do
  let first ← satisfy p
  return first :: (← takeWhile p)

/-- What the scanner reads, or nothing if it fails. -/
def perhaps {α : Type} (p : Scan α) : Scan (Option α) := fun s =>
  match p s with
  | some (a, rest) => some (some a, rest)
  | none => some (none, s)

/-- Whether the text goes on with what the scanner reads; it is read if so. -/
def goesOn {α : Type} (p : Scan α) : Scan Bool := do return (← perhaps p).isSome

/-- Reads again and again, at most as often as `room` is long. -/
def manyFrom {α : Type} (p : Scan α) : (room : List Char) → List Char → List α × List Char
  | [], s => ([], s)
  | _ :: room, s =>
    match p s with
    | none => ([], s)
    | some (a, rest) =>
      let (as, last) := manyFrom p room rest
      (a :: as, last)

/-- Reads until the scanner fails. -/
def many {α : Type} (p : Scan α) : Scan (List α) := fun s => some (manyFrom p s s)

/-- One or more with separators between them. -/
def separated {α : Type} (p : Scan α) (separator : Scan Unit) : Scan (List α) := do
  let first ← p
  return first :: (← many (do separator; p))

/-! ## Blanks, line ends and comments -/

def isBlank (c : Char) : Bool := c == ' ' || c == '\t'

def blanks : Scan Unit := do discard (takeWhile isBlank)

def lineEnd : Scan Unit
  | '\n' :: rest => some ((), rest)
  | '\r' :: '\n' :: rest => some ((), rest)
  | _ => none

def atEnd : Scan Unit
  | [] => some ((), [])
  | _ => none

/-- Characters allowed inside a comment. -/
def isCommentChar (c : Char) : Bool := c == '\t' || (' ' ≤ c && c != '\x7f')

def comment : Scan Unit := do
  char '#'
  discard (takeWhile isCommentChar)

/-- What may stand behind a header or a value on its line. -/
def restOfLine : Scan Unit := do
  blanks
  discard (perhaps comment)
  lineEnd <|> atEnd

/-- Blanks, line ends and comments in any number. -/
def filler : Scan Unit := do
  discard (many (discard (takeWhile1 isBlank) <|> lineEnd <|> comment))

end Scan

end Redaction.Toml
