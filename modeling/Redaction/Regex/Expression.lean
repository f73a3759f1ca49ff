import Redaction.Regex.Brackets
import Redaction.Text.Numeric

/-!
# Regular expressions

Which texts are regular expressions. Items follow each other, a bar parts
alternatives, and groups stand in parentheses; `?`, `*` and `+` repeat what stands in
front of them, lazily with a further `?`. A group can have a name of its own, and behind
`?` letters switch modes on and, behind a hyphen, off: up to the end of the group that
the switch stands in, or for the group that it opens. Counts of repetitions in braces are
not known.

`isRegex` reads from the left with the groups that are open on a stack. Nothing is
kept of what has been read but its depth.
-/

namespace Redaction.Regex

/-! ## Behind an opening parenthesis -/

/-- Letters that have been read, the last in front. -/
structure Switches where
  seen : List Char := []
  on : Bool := true
  mode : Mode
deriving DecidableEq, Repr

/-- One more letter, or the hyphen; none comes twice. -/
def Switches.add? (s : Switches) (c : Char) : Option Switches :=
  if c ∈ s.seen then none
  else
    let s := { s with seen := c :: s.seen }
    match c with
    | '-' => some { s with on := false }
    | 'i' => some { s with mode.caseless := s.on }
    | 'u' => some { s with mode.allScripts := s.on }
    | 'x' => some { s with mode.spaced := s.on }
    | 'm' | 's' | 'R' | 'U' => some s
    | _ => none

inductive Opening
  | group (mode : Mode) (name : Option (List Char))
  /-- No group opens; the mode of the one around it changes. -/
  | switch (mode : Mode)
deriving DecidableEq, Repr

def isNameStart (c : Char) : Bool := c == '_' || Text.isAlphabetic c

def isNameChar (c : Char) : Bool :=
  c == '_' || c == '.' || c == '[' || c == ']' || Text.isAlphanumeric c

/-- A name up to the sign that ends it. -/
def readName (text : List Char) : Option (List Char × List Char) :=
  let name := text.takeWhile (· ≠ '>')
  match name, text.drop name.length with
  | first :: more, '>' :: rest =>
    if isNameStart first && more.all isNameChar then some (name, rest) else none
  | _, _ => none

/-- Letters up to a colon, which opens a group, or a parenthesis, which does not. -/
def readSwitches (m : Mode) (text : List Char) : Option (Opening × List Char) := do
  let letters := text.takeWhile fun c => c ≠ ':' ∧ c ≠ ')'
  let switches ← letters.foldlM Switches.add? { mode := m }
  guard (switches.seen.head? ≠ some '-')
  match text.drop letters.length with
  | ':' :: rest => return (.group switches.mode none, rest)
  | ')' :: rest =>
    guard (letters ≠ [])
    return (.switch switches.mode, rest)
  | _ => none

def readOpening (m : Mode) (text : List Char) : Option (Opening × List Char) :=
  match m.skip text with
  | '?' :: 'P' :: '<' :: rest | '?' :: '<' :: rest => do
    let (name, last) ← readName rest
    return (.group m (some name), last)
  | '?' :: rest => readSwitches m rest
  | rest => some (.group m none, rest)

/-! ## Groups -/

/-- A group that is open. -/
structure Group where
  mode : Mode := {}
  /-- The alternatives that are complete. -/
  alternatives : Row := {}
  /-- The items of the last alternative. -/
  items : Row := {}
  /-- The depth of what a sign for repetition would repeat. -/
  last : Option Nat := none
deriving DecidableEq, Repr

namespace Group

def depth (g : Group) : Nat := (g.alternatives.add g.items.depth).depth

def add (g : Group) (depth : Nat) : Group :=
  { g with items := g.items.add depth, last := some depth }

/-- A switch takes a place among the items, but cannot be repeated. -/
def switch (g : Group) (mode : Mode) : Group :=
  { g with mode, items := g.items.add 0, last := none }

def divide (g : Group) : Group :=
  { mode := g.mode, alternatives := g.alternatives.add g.items.depth }

def repeat? (g : Group) : Option Group :=
  g.last.map fun depth => { g with items := g.items.deepen (depth + 1), last := some (depth + 1) }

end Group

/-! ## Reading -/

structure Reader where
  group : Group := {}
  outer : List Group := []
  names : List (List Char) := []
deriving DecidableEq, Repr

def readItem (m : Mode) : List Char → Option (Item × List Char)
  | [] => none
  | '\\' :: rest => readEscape m rest
  | '.' :: rest => some (.anyChar, rest)
  | '^' :: rest | '$' :: rest => some (.place false, rest)
  | c :: rest => some (.char c, rest)

namespace Reader

def add (r : Reader) (depth : Nat) : Reader := { r with group := r.group.add depth }

def openGroup (r : Reader) : Opening → Option Reader
  | .switch mode => some { r with group := r.group.switch mode }
  | .group mode none => some { r with group := { mode }, outer := r.group :: r.outer }
  | .group mode (some name) =>
    if name ∈ r.names then none
    else some { group := { mode }, outer := r.group :: r.outer, names := name :: r.names }

def closeGroup (r : Reader) : Option Reader :=
  match r.outer with
  | [] => none
  | next :: outer => some { r with group := next.add (r.group.depth + 1), outer }

def step (r : Reader) (text : List Char) : Option (Reader × List Char) := do
  match text with
  | '(' :: rest =>
    let (opening, rest) ← readOpening r.group.mode rest
    return (← r.openGroup opening, rest)
  | ')' :: rest => return (← r.closeGroup, rest)
  | '|' :: rest => return ({ r with group := r.group.divide }, rest)
  | '[' :: rest =>
    let (depth, rest) ← readBrackets r.group.mode rest
    return (r.add depth, rest)
  | '\x7b' :: _ => none
  | '?' :: rest | '*' :: rest | '+' :: rest =>
    let group ← r.group.repeat?
    return ({ r with group }, match rest with
      | '?' :: rest => rest
      | rest => rest)
  | text =>
    let (item, rest) ← readItem r.group.mode text
    guard (item.isUsable r.group.mode)
    return (r.add 0, rest)

/-- Reads to the end; every step takes a character, and `room` has one for each. -/
def run : (room : List Char) → Reader → List Char → Option Reader
  | [], r, _ => some r
  | _ :: room, r, text =>
    match r.group.mode.skip text with
    | [] => some r
    | text => do
      let (r, rest) ← r.step text
      run room r rest

/-- All groups are closed, and nothing nests too deep. -/
def isComplete (r : Reader) : Bool := r.outer.isEmpty && r.group.depth ≤ depthLimit

end Reader

def isRegex (text : List Char) : Bool := (Reader.run text {} text).any (·.isComplete)

end Redaction.Regex
