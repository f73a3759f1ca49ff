import Redaction.Bytes

/-!
# Files and folders

Files and folders, each under the names on the way to it from the root. A path is
given as bytes with slashes between the names and starts from the working directory
unless a slash stands in front. Every name on the way must be a folder, or a symbolic
link, whose path is followed in its place. A file can have further names.

What the system does not allow it refuses with a reason: to go through a folder, to
open or read what is there, to empty a file, or to make a new one in a folder.

A file is found first and read later, so a read sees what has become of it since.
-/

namespace Redaction

inductive FileError
  | notFound
  | notFolder
  | isFolder
  | nameTooLong
  | tooManyLinks
  | nulInPath
  | notText
  | refused (reason : String)
deriving DecidableEq, Repr

def FileError.message : FileError → String
  | .notFound => "No such file or directory (os error 2)"
  | .notFolder => "Not a directory (os error 20)"
  | .isFolder => "Is a directory (os error 21)"
  | .nameTooLong => "File name too long (os error 36)"
  | .tooManyLinks => "Too many levels of symbolic links (os error 40)"
  | .nulInPath => "file name contained an unexpected NUL byte"
  | .notText => "stream did not contain valid UTF-8"
  | .refused reason => reason

/-- The names on the way from the root. -/
abbrev Place := List Bytes

inductive Node
  | file (content : Bytes)
  | folder
  /-- A symbolic link to what the path leads to. -/
  | link (path : Bytes)
deriving DecidableEq, Repr

/-- What is done at a place. -/
inductive Access
  /-- A path goes through the folder. -/
  | pass
  /-- What is there is opened for reading. -/
  | find
  | read
  /-- The file is opened for writing and emptied. -/
  | replace
  /-- A file is made in the folder. -/
  | add
deriving DecidableEq, Repr

structure FileTree where
  nodes : List (Place × Node) := []
  /-- The working directory. -/
  here : Place := []
  /-- Further names of files, each with the place where the file stands in `nodes`. -/
  aliases : List (Place × Place) := []
  /-- What is not allowed, and why. -/
  refusals : List ((Place × Access) × String) := []
deriving DecidableEq, Repr

namespace FileTree

def node? (t : FileTree) (place : Place) : Option Node :=
  if place.isEmpty then some .folder else t.nodes.lookup place

/-- Where the file stands that has this name. -/
def home (t : FileTree) (name : Place) : Place := (t.aliases.lookup name).getD name

def allow (t : FileTree) (place : Place) (access : Access) : Except FileError Unit :=
  match t.refusals.lookup (place, access) with
  | none => .ok ()
  | some reason => .error (.refused reason)

/-- Puts a node at a place, with the folders on the way to it that are missing. -/
def plant (t : FileTree) (place : Place) (node : Node) : FileTree :=
  let onTheWay := (List.range place.length).map place.take
  let missing := (onTheWay.filter fun p => (t.node? p).isNone).map (·, Node.folder)
  { t with nodes := t.nodes ++ missing ++ [(place, node)] }

/-! ## Following paths -/

def slash : UInt8 := 0x2F

def dot : UInt8 := 0x2E

/-- The names in a path; a slash at the end leaves an empty one. -/
def names (path : Bytes) : List Bytes :=
  path.foldr (fun b names =>
    if b = slash then [] :: names
    else match names with
      | [] => [[b]]
      | name :: rest => (b :: name) :: rest) [[]]

/-- The tree with a working directory and nodes at the given paths from there. -/
def ofList (here : Place) (nodes : List (Bytes × Node)) : FileTree :=
  nodes.foldl (fun t (path, node) => t.plant (here ++ names path) node)
    (plant { here } here .folder)

/-- The most bytes in a name. -/
def nameLimit : Nat := 255

/-- The most bytes in a path. -/
def pathLimit : Nat := 4095

/-- The most symbolic links that are followed on the way to one place. -/
def linkLimit : Nat := 40

/-- The folder from which a path goes on. -/
def base (here : Place) (path : Bytes) : Place := if path.head? = some slash then [] else here

/-- Follows names from a place up to the first symbolic link, if there is one on the way. Above
the root there is the root. For a link the way goes on with the names behind it, from the folder
where its path begins. -/
def walk (t : FileTree) (here : Place) :
    List Bytes → Except FileError (Place × Option (List Bytes))
  | [] => .ok (here, none)
  | name :: rest =>
    match t.node? here with
    | none => .error .notFound
    | some .folder =>
      if name = [] then t.walk here rest
      else match t.allow here .pass with
        | .error cause => .error cause
        | .ok () =>
          if name = [dot] then t.walk here rest
          else if name = [dot, dot] then t.walk here.dropLast rest
          else if nameLimit < name.length then .error .nameTooLong
          else
            let next := t.home (here ++ [name])
            match t.node? next with
            | some (.link path) => .ok (base here path, some (names path ++ rest))
            | _ => t.walk next rest
    | some _ => .error .notFolder

/-- Follows names from a place, with so many symbolic links at most. -/
def follow (t : FileTree) (links : Nat) (here : Place) (names : List Bytes) :
    Except FileError Place :=
  match t.walk here names with
  | .error cause => .error cause
  | .ok (place, none) => .ok place
  | .ok (place, some names) =>
    match links with
    | 0 => .error .tooManyLinks
    | links + 1 => t.follow links place names

/-- Refuses what can be no path, whatever files there are. -/
def checkPath (path : Bytes) : Except FileError Unit :=
  if path.isEmpty then .error .notFound
  else if path.contains 0 then .error .nulInPath
  else if pathLimit < path.length then .error .nameTooLong
  else .ok ()

/-- The place that a path leads to; there may be nothing yet. -/
def locate (t : FileTree) (path : Bytes) : Except FileError Place := do
  checkPath path
  t.follow linkLimit (base t.here path) (names path)

/-! ## Reading and writing -/

/-- Finds what a path leads to, for reading. -/
def find (t : FileTree) (path : Bytes) : Except FileError Place := do
  let place ← t.locate path
  match t.node? place with
  | none => throw .notFound
  | some (.link _) => throw .tooManyLinks
  | some _ =>
    t.allow place .find
    return place

def read (t : FileTree) (place : Place) : Except FileError Bytes := do
  t.allow place .read
  match t.node? place with
  | none => throw .notFound
  | some .folder => throw .isFolder
  | some (.link _) => throw .tooManyLinks
  | some (.file content) => return content

/-- Reads a whole file as text. -/
def readText (t : FileTree) (path : Bytes) : Except FileError String := do
  let bytes ← t.read (← t.find path)
  match Bytes.toText? bytes with
  | some text => return text
  | none => throw .notText

/-- Gives the file at a place its content; there need not be one yet. -/
def write (t : FileTree) (place : Place) (content : Bytes) : FileTree :=
  if (t.nodes.lookup place).isSome then
    { t with
      nodes := t.nodes.map fun entry =>
        if entry.1 = place then (place, .file content) else entry }
  else { t with nodes := t.nodes ++ [(place, .file content)] }

/-- The names on the way to what a path leads to, with the folder itself behind them. -/
def way (path : Bytes) : List Bytes :=
  ((names path).reverse.dropWhile List.isEmpty).tail.reverse ++ [[dot]]

/-- Whether a file can be put at a place: emptied if it is there, else made. -/
def checkTarget (t : FileTree) (place : Place) : Except FileError Unit :=
  match t.node? place with
  | none => t.allow place.dropLast .add
  | some .folder => .error .isFolder
  | some (.link _) => .error .tooManyLinks
  | some (.file _) => t.allow place .replace

/-- Makes an empty file or empties the one that is there. A path that ends in a slash
can only mean a folder, so its last name does not matter. -/
def create (t : FileTree) (path : Bytes) : Except FileError (Place × FileTree) := do
  checkPath path
  if path.getLast? = some slash then
    discard (t.follow linkLimit (base t.here path) (way path))
    throw .isFolder
  let place ← t.locate path
  t.checkTarget place
  return (place, t.write place [])

end FileTree

end Redaction
