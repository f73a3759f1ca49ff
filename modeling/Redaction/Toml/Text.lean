import Redaction.Text.Digits
import Redaction.Toml.Scan

/-!
# Strings and keys

Strings in double quotes know escapes, strings in single quotes do not; both come
on one line or, with the quotes tripled, over several. Over several lines a line
end right behind the opening quotes is dropped, every other line end counts as a
line feed, and a backslash at the end of a line swallows the blanks and line ends
that follow. Up to two quotes may stand directly before the closing three.
-/

namespace Redaction.Toml

open Scan

/-! ## Characters -/

/-- Characters that stand for themselves in every string, quotes and backslash aside. -/
def isPlain (c : Char) : Bool := c == '\t' || (' ' ≤ c && c != '\x7f')

/-- The character with the code point that `n` hexadecimal digits write. -/
def codePoint? (n : Nat) (s : List Char) : Option Char := do
  let digits := s.take n
  guard (digits.length = n)
  Text.charOfHex? digits

/-- What an escape stands for, and how many characters it has behind the backslash. -/
def escape? : List Char → Option (Char × Nat)
  | 'b' :: _ => some ('\x08', 1)
  | 't' :: _ => some ('\t', 1)
  | 'n' :: _ => some ('\n', 1)
  | 'f' :: _ => some ('\x0c', 1)
  | 'r' :: _ => some ('\r', 1)
  | '\x22' :: _ => some ('\x22', 1)
  | '\\' :: _ => some ('\\', 1)
  | 'u' :: rest => (codePoint? 4 rest).map (·, 5)
  | 'U' :: rest => (codePoint? 8 rest).map (·, 9)
  | _ => none

/-! ## On one line -/

/-- The rest of a string in double quotes. -/
def basicTail : List Char → Option (List Char × List Char)
  | [] => none
  | '\x22' :: rest => some ([], rest)
  | '\\' :: rest => do
    let (c, n) ← escape? rest
    let (cs, last) ← basicTail (rest.drop n)
    return (c :: cs, last)
  | c :: rest =>
    if isPlain c then do
      let (cs, last) ← basicTail rest
      return (c :: cs, last)
    else none
termination_by s => s.length
decreasing_by all_goals simp only [List.length_drop, List.length_cons]; omega

/-- The rest of a string in single quotes. -/
def literalTail : List Char → Option (List Char × List Char)
  | [] => none
  | '\x27' :: rest => some ([], rest)
  | c :: rest =>
    if isPlain c then do
      let (cs, last) ← literalTail rest
      return (c :: cs, last)
    else none

/-! ## Over several lines -/

/-- The rest of a string in three double quotes. While `swallowing`, blanks and line
ends are skipped. -/
def basicLinesTail (swallowing : Bool) : List Char → Option (List Char × List Char)
  | [] => none
  | '\x22' :: '\x22' :: '\x22' :: '\x22' :: '\x22' :: rest => some (['\x22', '\x22'], rest)
  | '\x22' :: '\x22' :: '\x22' :: '\x22' :: rest => some (['\x22'], rest)
  | '\x22' :: '\x22' :: '\x22' :: rest => some ([], rest)
  | '\r' :: '\n' :: rest =>
    if swallowing then basicLinesTail true rest
    else do
      let (cs, last) ← basicLinesTail false rest
      return ('\n' :: cs, last)
  | '\n' :: rest =>
    if swallowing then basicLinesTail true rest
    else do
      let (cs, last) ← basicLinesTail false rest
      return ('\n' :: cs, last)
  | '\\' :: rest =>
    if (lineEnd (rest.dropWhile isBlank)).isSome then basicLinesTail true rest
    else do
      let (c, n) ← escape? rest
      let (cs, last) ← basicLinesTail false (rest.drop n)
      return (c :: cs, last)
  | c :: rest =>
    if swallowing && isBlank c then basicLinesTail true rest
    else if isPlain c then do
      let (cs, last) ← basicLinesTail false rest
      return (c :: cs, last)
    else none
termination_by s => s.length
decreasing_by all_goals simp only [List.length_drop, List.length_cons]; omega

/-- The rest of a string in three single quotes. -/
def literalLinesTail : List Char → Option (List Char × List Char)
  | [] => none
  | '\x27' :: '\x27' :: '\x27' :: '\x27' :: '\x27' :: rest => some (['\x27', '\x27'], rest)
  | '\x27' :: '\x27' :: '\x27' :: '\x27' :: rest => some (['\x27'], rest)
  | '\x27' :: '\x27' :: '\x27' :: rest => some ([], rest)
  | '\r' :: '\n' :: rest => do
    let (cs, last) ← literalLinesTail rest
    return ('\n' :: cs, last)
  | c :: rest =>
    if c == '\n' || isPlain c then do
      let (cs, last) ← literalLinesTail rest
      return (c :: cs, last)
    else none

/-! ## Strings and keys -/

/-- A string on one line. -/
def line : Scan String
  | '\x22' :: rest => do
    let (cs, last) ← basicTail rest
    return (String.ofList cs, last)
  | '\x27' :: rest => do
    let (cs, last) ← literalTail rest
    return (String.ofList cs, last)
  | _ => none

/-- A string of any kind. -/
def string : Scan String
  | '\x22' :: '\x22' :: '\x22' :: rest => do
    let (cs, last) ← basicLinesTail false (dropLineEnd rest)
    return (String.ofList cs, last)
  | '\x27' :: '\x27' :: '\x27' :: rest => do
    let (cs, last) ← literalLinesTail (dropLineEnd rest)
    return (String.ofList cs, last)
  | s => line s
where
  dropLineEnd (s : List Char) : List Char := ((lineEnd s).map (·.2)).getD s

def isBareKeyChar (c : Char) : Bool := c.isAlphanum || c == '_' || c == '-'

/-- One part of a key. -/
def keyPart : Scan String :=
  line <|> do return String.ofList (← takeWhile1 isBareKeyChar)

/-- A key of at least one and fewer than 80 parts with dots between them: the parts
before the last, and the last. -/
def key : Scan (List String × String) := do
  let parts ← separated (do blanks; let k ← keyPart; blanks; return k) (char '.')
  guard (parts.length < 80)
  match parts.getLast? with
  | some last => return (parts.dropLast, last)
  | none => fail

end Redaction.Toml
