import Redaction.Regex.Depth
import Redaction.Regex.Item

/-!
# Sets in brackets

Between brackets stand characters, ranges of characters, named sets and further
brackets; pairs of signs between them intersect, subtract or take what only one side
has, from the left to the right. Hyphens directly behind an opening bracket, and a
closing bracket there, are characters, and a hyphen in front of the closing one is, too.

Reading says how deep the set nests and where it ends. Every step takes at least one
character, so the text itself has room for all of them.
-/

namespace Redaction.Regex

/-- A bracket that is open. -/
structure Bracket where
  /-- The depth of what stands in front of the last operator. -/
  left : Option Nat := none
  /-- What stands behind it. -/
  members : Row := {}
  /-- Nothing but hyphens has been read. -/
  atStart : Bool := true
deriving DecidableEq, Repr

namespace Bracket

/-- The depth of the set without its brackets. -/
def depth (b : Bracket) : Nat :=
  match b.left with
  | none => b.members.depth
  | some d => max d b.members.depth + 1

def add (b : Bracket) (depth : Nat) : Bracket :=
  { b with members := b.members.add depth, atStart := false }

def operator (b : Bracket) : Bracket := { left := some b.depth, atStart := false }

end Bracket

/-- What follows a hyphen, blanks and one number sign aside. -/
def Mode.next? (m : Mode) (text : List Char) : Option Char :=
  if m.spaced then
    match text.dropWhile Text.isBlank with
    | '#' :: rest => (rest.dropWhile Text.isBlank).head?
    | rest => rest.head?
  else text.head?

def readMember (m : Mode) : List Char → Option (Item × List Char)
  | [] => none
  | '\\' :: rest => readEscape m rest
  | c :: rest => some (.char c, rest)

/-- The text behind a member or a range from one to another. -/
def readMembers (m : Mode) (text : List Char) : Option (List Char) := do
  let (first, rest) ← readMember m text
  let rest := m.skip rest
  match rest with
  | '-' :: behind =>
    if m.next? behind = some ']' ∨ m.next? behind = some '-' then
      guard (first.isMember m)
      return rest
    else
      let (last, rest) ← readMember m (m.skip behind)
      guard ((← first.char? m) ≤ (← last.char? m))
      return rest
  | _ =>
    guard (first.isMember m)
    return rest

/-- The sets of ASCII that have a name between colons. -/
def asciiSets : List String :=
  ["alnum", "alpha", "ascii", "blank", "cntrl", "digit", "graph", "lower", "print",
   "punct", "space", "upper", "word", "xdigit"]

/-- Behind an opening bracket, a name between colons and a closing bracket: whether all
but the set is meant, and the text behind it. -/
def readAsciiSet : List Char → Option (Bool × List Char)
  | ':' :: rest =>
    let (complement, rest) := match rest with
      | '^' :: rest => (true, rest)
      | rest => (false, rest)
    asciiSets.findSome? fun name =>
      let written := (name ++ ":]").toList
      if written.isPrefixOf rest then some (complement, rest.drop written.length) else none
  | _ => none

/-- The text behind an opening bracket and the caret that takes the complement. -/
def openBracket (m : Mode) (text : List Char) : Option (List Char) :=
  match m.skip text with
  | '^' :: rest => if m.allScripts then some rest else none
  | rest => some rest

/-- Reads one thing inside the bracket `b`, not the bracket that closes it. -/
def Bracket.step (m : Mode) (b : Bracket) (outer : List Bracket) (text : List Char) :
    Option (Bracket × List Bracket × List Char) := do
  match text, b.atStart with
  | '-' :: rest, true =>
    guard ((Item.char '-').isMember m)
    return ({ b with members := b.members.add 0 }, outer, rest)
  | ']' :: rest, true =>
    guard ((Item.char ']').isMember m)
    return (b.add 0, outer, rest)
  | '[' :: rest, _ =>
    match readAsciiSet rest with
    | some (complement, rest) =>
      guard (if m.allScripts then !m.caseless else !complement)
      return (b.add 0, outer, rest)
    | none => return ({}, { b with atStart := false } :: outer, ← openBracket m rest)
  | '&' :: '&' :: rest, _ | '-' :: '-' :: rest, _ | '~' :: '~' :: rest, _ =>
    return (b.operator, outer, rest)
  | text, _ => return (b.add 0, outer, ← readMembers m text)

/-- A bracket in front of which no member stands is a member itself. -/
def Bracket.closes (b : Bracket) (text : List Char) : Bool :=
  text.head? == some ']' && !(b.atStart && b.members.count == 0)

/-- Reads on inside the bracket `b` and the `outer` ones, up to the last that closes. -/
def readBracketsFrom (m : Mode) : (room : List Char) → Bracket → (outer : List Bracket) →
    List Char → Option (Nat × List Char)
  | [], _, _, _ => none
  | _ :: room, b, outer, text =>
    let text := m.skip text
    if b.closes text then
      match outer with
      | [] => some (b.depth + 1, text.tail)
      | next :: outer => readBracketsFrom m room (next.add (b.depth + 1)) outer text.tail
    else do
      let (b, outer, rest) ← b.step m outer text
      readBracketsFrom m room b outer rest

/-- A set, behind its opening bracket: how deep it nests, and the text behind it. -/
def readBrackets (m : Mode) (text : List Char) : Option (Nat × List Char) := do
  let text ← openBracket m text
  readBracketsFrom m text {} [] text

end Redaction.Regex
