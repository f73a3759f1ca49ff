import Redaction.CommandLine
import Redaction.Loading
import Redaction.Log.Setting

/-!
# The program as a whole

`Program.run` is everything that a call of the program does, as a function of what
it is called with: the words, the environment, standard input, the files, and what
becomes of the bytes that it puts out.

Nothing is written before the secrets have been loaded, their patterns accepted and
the input found. The output is created next, which empties a file that is already
there, and only then is the input read. So when both are one file, there is nothing
left to read.
-/

namespace Redaction

/-! ## Failures -/

inductive Failure
  | secrets (cause : LoadError)
  | pattern (cause : PatternError)
  | input (path : Bytes) (cause : FileError)
  | output (path : Bytes) (cause : FileError)
  | mask (cause : PassError)
  | scan (cause : PassError)
  /-- The end of the line behind a report was refused. -/
  | lineEnd (cause : SinkError)
  | lastFlush (cause : SinkError)
deriving DecidableEq, Repr

/-- What others have to say in the report of a failure. -/
structure Remarks where
  /-- What the parser has against a text that is no secrets file. -/
  parser : String := ""
  /-- Why the output refuses. -/
  output : String := ""
  /-- The calls that led to the failure, in lines. -/
  backtrace : List String := []
  /-- The lines on a buffer that cannot be had. -/
  overflow : List String := []
deriving DecidableEq, Repr

namespace Failure

/-- What went wrong, then what caused it, and so on. -/
def chain (r : Remarks) : Failure → List String
  | secrets cause => cause.chain r.parser
  | pattern cause => ["invalid secret configuration", cause.message]
  | input path cause => ["open input " ++ Text.lossy path, cause.message]
  | output path cause => ["create output " ++ Text.lossy path, cause.message]
  | mask cause => "mask stream failed" :: cause.chain fun _ => r.output
  | scan cause => "scan stream failed" :: cause.chain fun _ => r.output
  | lineEnd _ => [r.output]
  | lastFlush _ => ["flush output", r.output]

/-- The program breaks off without a report of its own. -/
def breaksOff : Failure → Bool
  | mask (.read .overflow) | scan (.read .overflow) => true
  | _ => false

def status (f : Failure) : Nat := if f.breaksOff then 101 else 1

/-- A cause as lines, the first behind a label and all others as far in. -/
def indented (label cause : String) : List String :=
  (cause.splitOn "\n").mapIdx fun i line =>
    (if i = 0 then label else "".pushn ' ' label.length) ++ line

/-- The lines that report a failure. A single cause stands alone, several are numbered. -/
def report (r : Remarks) (backtraced : Bool) (f : Failure) : List String :=
  if f.breaksOff then r.overflow
  else
    let said := match f.chain r with
      | [] => []
      | [text] => ["Error: " ++ text]
      | [text, cause] => ["Error: " ++ text, "", "Caused by:"] ++ indented "    " cause
      | text :: causes =>
        ["Error: " ++ text, "", "Caused by:"] ++
          (causes.mapIdx fun i cause => indented s!"    {i}: " cause).flatten
    said ++ if backtraced then ["", "Stack backtrace:"] ++ r.backtrace else []

/-- A backtrace is wanted; of the two variables that say so the first wins. -/
def backtraced (env : Environment) : Bool :=
  ((env.text? "RUST_LIB_BACKTRACE").or (env.text? "RUST_BACKTRACE")).any (· ≠ "0")

end Failure

/-! ## Calls and outcomes -/

inductive Stdin
  | script (pieces : List Piece)
  /-- Standard input is the file at a place, from its beginning. -/
  | file (place : Place)
deriving DecidableEq, Repr

/-- What is put out goes to a sink, which holds bytes back and hands them on later. -/
structure Output where
  sink : Sink := {}
  /-- How many of the bytes that the sink took it hands on after a failure, if not all. -/
  reached : Option Nat := none
deriving DecidableEq, Repr

/-- The bytes that come out, of those that were taken. -/
def Output.shown (o : Output) (taken : Bytes) (failed : Bool) : Bytes :=
  match failed, o.reached with
  | true, some n => taken.take n
  | _, _ => taken

/-- What the program is called with. Standard output and standard error are none of the
files. -/
structure Call where
  words : List Bytes := []
  environment : Environment := []
  input : Stdin := .script []
  output : Output := {}
  tree : FileTree := {}
  remarks : Remarks := {}
deriving DecidableEq, Repr

/-- What a command comes to. -/
structure Outcome where
  /-- The bytes on standard output. -/
  output : Bytes := []
  events : List Event := []
  failure : Option Failure := none
  /-- The files afterwards. -/
  tree : FileTree
deriving DecidableEq, Repr

/-- What a call shows to its caller. -/
structure Ending where
  status : Nat
  output : Bytes := []
  /-- The lines on standard error. -/
  diagnostics : List String := []
  tree : FileTree
deriving DecidableEq, Repr

/-! ## What a command does with its input -/

/-- What a command has put out when it is done. -/
structure Work where
  taken : Bytes
  events : List Event
  failure : Option Failure := none

namespace Command

def task : Command → Task
  | mask task _ _ => task
  | scan task => task

/-- Where the output goes; a scan has standard output only. -/
def output : Command → Option Bytes
  | mask _ output _ => output
  | scan _ => none

def settings : Command → Settings
  | mask task _ marker => { portionSize := task.portionSize, marker }
  | scan task => { portionSize := task.portionSize }

def pass (command : Command) (finder : Finder) (sink : Sink) (pieces : List Piece) : Pass :=
  match command with
  | mask .. => Pass.mask command.settings finder sink pieces
  | scan _ => Pass.scan command.settings finder sink pieces

def failure : Command → PassError → Failure
  | mask .. => .mask
  | scan _ => .scan

/-- One pass over the input. Behind the report of a scan the line ends, and is flushed. -/
def work (command : Command) (finder : Finder) (sink : Sink) (pieces : List Piece) : Work :=
  let pass := command.pass finder sink pieces
  match pass.outcome with
  | .error cause =>
    { taken := pass.out, events := pass.events, failure := some (command.failure cause) }
  | .ok tally =>
    match command with
    | mask .. =>
      { taken := pass.out
        events := pass.events ++ [.maskFinished tally.bytesRead tally.spans tally.hiddenBytes] }
    | scan _ =>
      let ended := pass.sink.put 1
      let taken := pass.out ++ (Bytes.ofText "\n").take ended.taken
      match ended.error, ended.sink.flush.error with
      | some cause, _ => { taken, events := pass.events, failure := some (.lineEnd cause) }
      | none, some cause => { taken, events := pass.events, failure := some (.lastFlush cause) }
      | none, none =>
        { taken
          events := pass.events ++ [.scanFinished tally.bytesRead tally.portions tally.spans] }

end Command

namespace Program

/-! ## Preparation -/

/-- Loads the secrets and sets up the finder for them. -/
def prepare (c : Call) (task : Task) : List Event × Except Failure Finder :=
  let loading := Loading.gather c.tree c.environment task.secretsFile task.inline
  let skipped := loading.skipped.map Event.secretSkipped
  match loading.secrets with
  | .error cause => (skipped, .error (.secrets cause))
  | .ok secrets =>
    let loaded := skipped ++ (if secrets.isEmpty then [.noSecrets] else [])
      ++ [.secretsLoaded (secrets.map (·.name))]
    match Finder.ofPatterns (secrets.map (·.value)) with
    | .error cause => (loaded, .error (.pattern cause))
    | .ok finder => (loaded ++ [.finderReady finder.patternCount finder.longest], .ok finder)

/-- Where the input comes from; without a path it is standard input. -/
def findInput (tree : FileTree) (path : Option Bytes) : Except Failure (Option Place) :=
  match path with
  | none => .ok none
  | some path =>
    match tree.find path with
    | .ok place => .ok (some place)
    | .error cause => .error (.input path cause)

/-- Where the output goes, and the files when it has been created; without a path it is
standard output. -/
def createOutput (tree : FileTree) (path : Option Bytes) :
    Except Failure (Option Place × FileTree) :=
  match path with
  | none => .ok (none, tree)
  | some path =>
    match tree.create path with
    | .ok (place, tree) => .ok (some place, tree)
    | .error cause => .error (.output path cause)

/-- A finder, and where the input and the output are. -/
structure Opening where
  finder : Finder
  source : Option Place
  target : Option Place
  /-- The files when the output has been created. -/
  tree : FileTree

def opening (c : Call) (command : Command) : Except Failure Opening := do
  let finder ← (prepare c command.task).2
  let source ← findInput c.tree command.task.input
  let (target, tree) ← createOutput c.tree command.output
  return { finder, source, target, tree }

/-! ## Commands -/

/-- What can be read from a place; nothing where there is no file any more. -/
def piecesAt (tree : FileTree) (place : Place) : List Piece :=
  match tree.read place with
  | .ok content => [.data content]
  | .error .notFound => []
  | .error cause => [.failing cause.message]

/-- What can be read from standard input. -/
def piecesIn (tree : FileTree) : Stdin → List Piece
  | .script pieces => pieces
  | .file place => piecesAt tree place

namespace Opening

/-- What the input gives, once the output has been created. -/
def pieces (o : Opening) (c : Call) (command : Command) : List Piece :=
  match o.source with
  | some place => piecesAt o.tree place
  | none => Piece.buffered command.settings.readSize (piecesIn o.tree c.input)

/-- What the command comes to if the input gives these pieces. -/
def outcome (o : Opening) (c : Call) (command : Command) (pieces : List Piece) : Outcome :=
  let work := command.work o.finder c.output.sink pieces
  let shown := c.output.shown work.taken work.failure.isSome
  { output := if o.target.isNone then shown else []
    events := (prepare c command.task).1 ++ work.events
    failure := work.failure
    tree := match o.target with
      | none => o.tree
      | some place => o.tree.write place shown }

end Opening

def execute (c : Call) (command : Command) : Outcome :=
  match opening c command with
  | .error failure =>
    { events := (prepare c command.task).1, failure := some failure, tree := c.tree }
  | .ok o => o.outcome c command (o.pieces c command)

/-! ## Calls -/

def version : String := "secretmask 0.1.0\n"

def help : String :=
  about ++ "\n\nUsage: secretmask <COMMAND>\n\nCommands:\n  mask\n  scan\n  help\n\n" ++
    "Options:\n  -h, --help\n  -V, --version\n"

/-- Puts out a text, whether it is taken or not. -/
def print (c : Call) (text : String) : Ending :=
  let bytes := Bytes.ofText text
  let reply := c.output.sink.put bytes.length
  { status := 0
    output := c.output.shown (bytes.take reply.taken) (reply.error.or reply.sink.flush.error).isSome
    tree := c.tree }

/-- Shows a command's events, as far as the filter lets them, and its failure. -/
def conclude (c : Call) (o : Outcome) : Ending :=
  let filter := Log.Filter.ofSetting (c.environment.text? "RUST_LOG")
  let report := Failure.report c.remarks (Failure.backtraced c.environment)
  { status := (o.failure.map Failure.status).getD 0
    output := o.output
    diagnostics := (o.events.filter filter.shows).map (Log.line (Log.colored c.environment))
      ++ (o.failure.map report).getD []
    tree := o.tree }

def run (c : Call) : Ending :=
  match Invocation.ofWords c.words with
  | .error e => { status := 2, diagnostics := [e.message], tree := c.tree }
  | .ok .version => print c version
  | .ok .help => print c help
  | .ok (.run command) => conclude c (execute c command)

end Program

end Redaction
