import Redaction.Program

/-!
# Running the program

Gathers what `Program.run` depends on, calls it, and makes the ending come true.
The words and the environment are taken as bytes. Of the files only those are
looked at that the command names, with the folders and the symbolic links on the way
to them; two names of one file that are no such links are taken for two files.

Some things the system refuses only when they are tried: to open the output, or to
take bytes. Then the refusal becomes part of the call, and the call is run with it.
-/

namespace Redaction.Shell

/-! ## Gathering -/

def readList (file : String) : IO Bytes := do
  return (← IO.FS.readBinFile file).data.toList

/-- The words of the call; an empty one stands between two zero bytes. -/
def words : IO (List Bytes) := do
  let bs ← readList "/proc/self/cmdline"
  return ((bs.splitOn 0).dropLast).drop 1

def environment : IO Environment := do
  return (← readList "/proc/self/environ").splitOn 0

/-- Why the system refuses, in its words and with its number. -/
def reason : IO.Error → String
  | .permissionDenied _ code details | .noFileOrDirectory _ code details
  | .inappropriateType _ code details | .resourceExhausted _ code details
  | .invalidArgument _ code details | .hardwareFault code details
  | .resourceVanished code details | .otherError code details =>
    let number := if code.toNat < 0x80000000 then code.toNat else 0x100000000 - code.toNat
    s!"{details.capitalize} (os error {number})"
  | e => toString e

/-- The name of a place on this system. -/
def shown (place : Place) : Option String := do
  let names ← place.mapM Bytes.toText?
  return "/" ++ "/".intercalate names

/-- The place with this name from the root. -/
def placeOf (name : String) : Place :=
  (FileTree.names (Bytes.ofText name)).filter fun part => ¬part.isEmpty

/-- What is at the file, with all that can be read there if it is an ordinary one or `reads` is
set. A device is not read without need: it may have no end. -/
def nodeAt (file : String) (reads : Bool) : IO Node := do
  if let .ok real := ← (IO.FS.realPath file).toBaseIO then
    if real.toString ≠ file then return .link (Bytes.ofText real.toString)
  let path := (← IO.currentDir) / file
  if ← path.isDir then return .folder
  if reads || (← path.metadata).type == .file then return .file (← readList file)
  return .file []

/-- The tree with what is at a place. -/
def look (t : FileTree) (place : Place) (reads : Bool) : IO FileTree := do
  let some file := shown place | return t
  if (t.node? place).isSome then return t
  match ← (nodeAt file reads).toBaseIO with
  | .ok node => return { t with nodes := t.nodes ++ [(place, node)] }
  | .error (.noFileOrDirectory ..) => return t
  | .error e =>
    let opened ← (IO.FS.Handle.mk file .read).toBaseIO
    let access := if opened matches .ok _ then Access.read else Access.find
    return { t with
      nodes := t.nodes ++ [(place, .file [])]
      refusals := t.refusals ++ [((place, access), reason e)] }

/-- The tree with what is on the way that the names go. -/
partial def explore (reads : Bool) (t : FileTree) (here : Place) : List Bytes → IO FileTree
  | [] => return t
  | name :: rest =>
    if name = [] ∨ name = [FileTree.dot] then explore reads t here rest
    else if name = [FileTree.dot, FileTree.dot] then explore reads t here.dropLast rest
    else do
      let place := here ++ [name]
      let t ← look t place reads
      match t.node? place with
      | some (.link path) =>
        explore reads t (FileTree.base here path) (FileTree.names path ++ rest)
      | _ => explore reads t place rest

def gatherTree (command : Command) : IO FileTree := do
  let here := placeOf (← IO.currentDir).toString
  let visit (reads : Bool) (t : FileTree) (path : Bytes) : IO FileTree :=
    explore reads t (FileTree.base here path) (FileTree.names path)
  let start ← explore false { here } [] here
  let read := command.task.secretsFile.toList ++ command.task.input.toList
  let known ← read.foldlM (visit true) start
  command.output.toList.foldlM (visit false) known

/-- All pieces of a stream, up to its end or to a read that fails. -/
partial def readAll (stream : IO.FS.Stream) : IO (List Piece) := do
  try
    let bytes ← stream.read 65536
    if bytes.isEmpty then return []
    return .data bytes.data.toList :: (← readAll stream)
  catch e => return [.failing (reason e)]

/-- The file that standard input is, if it is one. -/
def inputFile : IO (Option Place) := do
  try
    let file ← IO.FS.realPath "/proc/self/fd/0"
    if (← file.metadata).type == .file then return some (placeOf file.toString)
    return none
  catch _ => return none

/-- What standard input is. It is read only where the command is not hindered before. -/
def gatherInput (c : Call) (command : Command) : IO Call := do
  match ← inputFile with
  | some place => return { c with input := .file place, tree := ← explore true c.tree [] place }
  | none =>
    match Program.opening c command with
    | .error _ => return c
    | .ok _ => return { c with input := .script (← readAll (← IO.getStdin)) }

def gather : IO Call := do
  let words ← words
  let environment ← environment
  match Invocation.ofWords words with
  | .ok (.run command) =>
    let remarks : Remarks := { overflow := [ReadError.overflow.message] }
    let c : Call := { words, environment, tree := ← gatherTree command, remarks }
    if command.task.input.isSome then return c
    gatherInput c command
  | _ => return { words, environment }

/-! ## Making the ending come true -/

/-- The call when the output cannot be opened. -/
def withoutTarget (c : Call) (place : Place) (e : IO.Error) : Call :=
  let refused := [((place, .replace), reason e), ((place.dropLast, .add), reason e)]
  { c with tree.refusals := refused ++ c.tree.refusals }

/-- The call when the output takes no bytes. -/
def withoutOutput (c : Call) (e : IO.Error) : Call :=
  { c with output.sink.refusesFlush := true, remarks.output := reason e }

def writeBytes (stream : IO.FS.Stream) (bs : Bytes) : IO Unit := do
  stream.write ⟨bs.toArray⟩
  stream.flush

/-- Runs the program, writes the files that have become others and the output, and tells how
it has ended. -/
def run (c : Call) : IO Ending := do
  let ending := Program.run c
  for (place, node) in ending.tree.nodes do
    if c.tree.node? place ≠ some node then
      if let (some file, .file content) := (shown place, node) then
        let opened ← (IO.FS.Handle.mk file .write).toBaseIO
        match opened with
        | .error e => return Program.run (withoutTarget c place e)
        | .ok handle =>
          try
            handle.write ⟨content.toArray⟩
            handle.flush
          catch e => return Program.run (withoutOutput c e)
  try writeBytes (← IO.getStdout) ending.output
  catch e => return Program.run (withoutOutput c e)
  return ending

def main : IO UInt32 := do
  let ending ← run (← gather)
  writeBytes (← IO.getStderr) (Bytes.ofText (String.join (ending.diagnostics.map (· ++ "\n"))))
  return UInt32.ofNat ending.status

end Redaction.Shell

def main : IO UInt32 := Redaction.Shell.main
