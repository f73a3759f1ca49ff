import Redaction.Toml.Value

/-!
# Filling tables

A key or a header names a place by a path of keys. `alterAt` goes down a path and
makes the tables that are missing on the way. A dotted key may pass only through
tables that no header has opened, and may add only to a table that dotted keys
made; a header may pass through everything but values. The latest table of a list
of tables stands for the list.

The table that the latest header opened is filled apart from the rest and put in
its place when the next header comes or the document ends.
-/

namespace Redaction.Toml

namespace Entries

/-- Puts a value in the place of the one that the key has. -/
def replace (key : String) (value : Value) (entries : Entries) : Entries :=
  entries.map fun entry => if entry.1 == key then (key, value) else entry

def erase (key : String) (entries : Entries) : Entries := entries.filter (·.1 != key)

/-- Changes the table at the end of a path, which starts from a table of the given
origin. -/
def alterAt {α : Type} (dotted : Bool) (change : Origin → Entries → Option (α × Entries)) :
    (path : List String) → Origin → Entries → Option (α × Entries)
  | [], origin, entries => change origin entries
  | key :: path, _, entries =>
    match entries.lookup key with
    | none => do
      let made := if dotted then .dotted else .implied
      let (a, inner) ← alterAt dotted change path made []
      return (a, (key, .table made inner) :: entries)
    | some (.table origin inner) => do
      guard (origin != .braces && !(dotted && origin == .header))
      let (a, inner) ← alterAt dotted change path origin inner
      return (a, entries.replace key (.table origin inner))
    | some (.tables (latest :: earlier)) => do
      let (a, latest) ← alterAt dotted change path .header latest
      return (a, entries.replace key (.tables (latest :: earlier)))
    | some _ => none

/-- Gives a key its value, in the table that its path names. -/
def assign (origin : Origin) (entries : Entries) (path : List String) (key : String)
    (value : Value) : Option Entries := do
  let add (origin : Origin) (inner : Entries) : Option (Unit × Entries) := do
    guard (path.isEmpty || origin == .dotted)
    guard (inner.lookup key).isNone
    return ((), (key, value) :: inner)
  let (_, entries) ← alterAt true add path origin entries
  return entries

end Entries

/-! ## The table being filled -/

inductive Header
  | root
  | table (path : List String) (key : String)
  | element (path : List String) (key : String)

structure Draft where
  /-- The document without the table being filled. -/
  root : Entries := []
  header : Header := .root
  /-- The table being filled. -/
  current : Entries := []

namespace Draft

/-- Puts the table being filled in its place. -/
def settle (d : Draft) : Option Entries :=
  match d.header with
  | .root => some d.current
  | .table path key => do
    let (_, root) ← Entries.alterAt false
      (fun _ inner => some ((), (key, .table .header d.current) :: inner)) path .header d.root
    return root
  | .element path key => do
    let push (_ : Origin) (inner : Entries) : Option (Unit × Entries) :=
      match inner.lookup key with
      | none => some ((), (key, .tables [d.current]) :: inner)
      | some (.tables elements) =>
        some ((), inner.replace key (.tables (d.current :: elements)))
      | some _ => none
    let (_, root) ← Entries.alterAt false push path .header d.root
    return root

/-- Opens the table of a header. One that is there already goes on only if nothing
but the headers of inner tables has made it. -/
def openTable (d : Draft) (path : List String) (key : String) : Option Draft := do
  let root ← d.settle
  let takeOut (_ : Origin) (inner : Entries) : Option (Entries × Entries) :=
    match inner.lookup key with
    | none => some ([], inner)
    | some (.table .implied kept) => some (kept, inner.erase key)
    | some _ => none
  let (current, root) ← root.alterAt false takeOut path .header
  return { root, header := .table path key, current }

/-- Opens one more table of a list of tables. -/
def openElement (d : Draft) (path : List String) (key : String) : Option Draft := do
  let root ← d.settle
  let check (_ : Origin) (inner : Entries) : Option (Unit × Entries) :=
    match inner.lookup key with
    | none => some ((), inner)
    | some (.tables _) => some ((), inner)
    | some _ => none
  let (_, root) ← root.alterAt false check path .header
  return { root, header := .element path key, current := [] }

def assign (d : Draft) (path : List String) (key : String) (value : Value) : Option Draft := do
  let current ← d.current.assign .header path key value
  return { d with current }

end Draft

end Redaction.Toml
