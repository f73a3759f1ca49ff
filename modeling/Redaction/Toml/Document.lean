import Redaction.Toml.Moment
import Redaction.Toml.Table

/-!
# Reading a document

A document is a sequence of lines, each a header, a key with its value, or nothing but
perhaps a comment. The lines are read first and then tell, one after another, what
goes into the draft. Arrays and tables in braces nest at most 79 deep; `value` takes
the depth that is left as its argument and recurs on it.
-/

namespace Redaction.Toml

open Scan

/-! ## Values -/

/-- The rest of an array. -/
def arrayTail (value : Scan Value) : Scan Value := do
  let item := do filler; let v ← value; filler; return v
  let items ← perhaps (separated item (char ','))
  if items.isSome then discard (perhaps (char ','))
  filler
  char ']'
  return .array (items.getD [])

/-- A key with its value. -/
def assignment (value : Scan Value) : Scan (List String × String × Value) := do
  let (path, last) ← key
  char '='
  blanks
  let v ← value
  return (path, last, v)

/-- The rest of a table in braces. -/
def bracesTail (value : Scan Value) : Scan Value := do
  let item := do let a ← assignment value; blanks; return a
  let items ← perhaps (separated item (char ','))
  blanks
  char '\x7d'
  let entries ← (items.getD []).foldlM
    (fun entries (path, key, v) => Entries.assign .braces entries path key v) []
  return .table .braces entries

/-- A value that holds no other values. -/
def scalar : Scan Value := do
  match ← peek with
  | some '\x22' | some '\x27' => return .string (← string)
  | some 't' => exactly "true"; return .boolean true
  | some 'f' => exactly "false"; return .boolean false
  | _ =>
    (do moment; return .datetime) <|>
    (do float; return .float) <|>
    (do return .integer (← integer))

/-- A value in which arrays and tables in braces nest at most `depth` deep. -/
def value : (depth : Nat) → Scan Value
  | 0 => scalar
  | depth + 1 => do
    match ← peek with
    | some '[' => char '['; arrayTail (value depth)
    | some '\x7b' => char '\x7b'; bracesTail (value depth)
    | _ => scalar

/-- How deep arrays and tables in braces nest at most. -/
def maxDepth : Nat := 79

/-! ## Lines -/

/-- What a line says. -/
inductive Line
  | nothing
  | table (path : List String) (key : String)
  | element (path : List String) (key : String)
  | assignment (path : List String) (key : String) (value : Value)

/-- A header in single or double brackets. -/
def header : Scan Line := do
  char '['
  let double ← goesOn (char '[')
  let (path, last) ← key
  char ']'
  if double then char ']'
  return if double then .element path last else .table path last

/-- A line that is there; at the end of the document there is none. -/
def nextLine : Scan Line := do
  blanks
  match ← peek with
  | none => fail
  | some '\n' | some '\r' => lineEnd; return .nothing
  | some '#' => restOfLine; return .nothing
  | some '[' => do
    let l ← header
    restOfLine
    return l
  | some _ => do
    let (path, last, v) ← assignment (value maxDepth)
    restOfLine
    return .assignment path last v

/-- All lines of a document. -/
def lines : Scan (List Line) := do
  let ls ← many nextLine
  blanks
  atEnd
  return ls

/-! ## Documents -/

/-- Does to a draft what a line says. -/
def Draft.add (d : Draft) : Line → Option Draft
  | .nothing => some d
  | .table path key => d.openTable path key
  | .element path key => d.openElement path key
  | .assignment path key value => d.assign path key value

/-- The entries of a document, unless it is malformed. A byte order mark in front is
skipped. -/
def parse (text : String) : Option Entries := do
  let s := text.toList
  let s := if s.head? = some '\uFEFF' then s.tail else s
  let (ls, _) ← lines s
  let d ← ls.foldlM Draft.add {}
  d.settle

end Redaction.Toml
