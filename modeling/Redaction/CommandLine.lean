import Redaction.Pass
import Redaction.Text.ControlSequence
import Redaction.Text.Decimal
import Redaction.Text.Lossy

/-!
# The command line

`mask` and `scan` take options, each with one value: behind an equals sign, or as
the next word unless that begins with a dash; a dash alone is a value. There are
no other arguments.

A value is looked at when the word behind it has been understood as an option, or
when the words end. So a word that has no place is reported before a bad value
directly in front of it, and every other mistake in the order of the words.
-/

namespace Redaction

/-! ## What can be asked for -/

/-- What both commands are told. -/
structure Task where
  input : Option Bytes := none
  secretsFile : Option Bytes := none
  inline : List String := []
  portionSize : Nat := ({} : Settings).portionSize
deriving DecidableEq, Repr

inductive Command
  | mask (task : Task) (output : Option Bytes) (marker : String)
  | scan (task : Task)
deriving DecidableEq, Repr

inductive Invocation
  | run (command : Command)
  | version
  | help
deriving DecidableEq, Repr

/-! ## Options -/

inductive Flag
  | input
  | secrets
  | secret
  | chunkSize
  | output
  | marker
deriving DecidableEq, Repr

namespace Flag

def name : Flag → String
  | input => "input"
  | secrets => "secrets"
  | secret => "secret"
  | chunkSize => "chunk-size"
  | output => "output"
  | marker => "marker"

/-- The option with a placeholder for its value. -/
def usage : Flag → String
  | input => "--input <INPUT>"
  | secrets => "--secrets <SECRETS>"
  | secret => "--secret <SECRET>"
  | chunkSize => "--chunk-size <CHUNK_SIZE>"
  | output => "--output <OUTPUT>"
  | marker => "--marker <MARKER>"

def ofScan : List Flag := [input, secrets, secret, chunkSize]

def ofMask : List Flag := ofScan ++ [output, marker]

end Flag

/-! ## Mistakes -/

inductive UsageError
  | noCommand
  | unknownCommand (word : String)
  | unexpected (word : String)
  | unexpectedValue (value flag : String)
  | missingValue (flag : Flag)
  | repeated (flag : Flag)
  | badValue (value : String) (flag : Flag) (reason : Text.DecimalError)
  | notText
deriving DecidableEq, Repr

/-- What the program is about. -/
def about : String := "流式密钥脱敏"

/-- The line that reports a mistake. Of the words in it only what a terminal shows is left,
so none of them can act on the terminal. -/
def UsageError.message : UsageError → String
  | .noCommand => about
  | .unknownCommand word => s!"error: unrecognized subcommand '{Text.visible word}'"
  | .unexpected word => s!"error: unexpected argument '{Text.visible word}' found"
  | .unexpectedValue value flag =>
    let value := Text.visible value
    s!"error: unexpected value '{value}' for '{flag}' found; no more were expected"
  | .missingValue flag =>
    s!"error: a value is required for '{flag.usage}' but none was supplied"
  | .repeated flag => s!"error: the argument '{flag.usage}' cannot be used multiple times"
  | .badValue value flag reason =>
    let value := Text.visible value
    s!"error: invalid value '{value}' for '{flag.usage}': {reason.message}"
  | .notText => "error: invalid UTF-8 was detected in one or more arguments"

/-! ## Words -/

inductive Word
  /-- Two dashes alone: no options from here on. -/
  | noMoreOptions
  | long (name : Bytes) (value : Option Bytes)
  /-- One dash and what follows it. -/
  | short (letters : Bytes)
  | plain
deriving DecidableEq, Repr

namespace Word

def dash : UInt8 := 0x2D

def equals : UInt8 := 0x3D

def ofBytes (bs : Bytes) : Word :=
  match bs with
  | a :: b :: rest =>
    if a = dash ∧ b = dash then
      if rest.isEmpty then .noMoreOptions
      else .long (rest.takeWhile (· ≠ equals)) (rest.dropWhile (· ≠ equals)).tail?
    else if a = dash then .short (b :: rest)
    else .plain
  | _ => .plain

/-- An option with one dash is shown by its first letter, and whole if it does not begin
with one. -/
def shownShort (letters : Bytes) : String :=
  "-" ++ ((Text.firstChar? letters).map String.singleton).getD (Text.lossy letters)

end Word

/-! ## Reading the words of a command -/

/-- What has been given so far. -/
structure Given where
  task : Task := {}
  output : Option Bytes := none
  marker : Option String := none
  /-- The options that have been given. -/
  flags : List Flag := []
deriving DecidableEq, Repr

namespace Given

def path (flag : Flag) (value : Bytes) : Except UsageError Bytes :=
  if value.isEmpty then .error (.missingValue flag) else .ok value

def text (value : Bytes) : Except UsageError String :=
  match Bytes.toText? value with
  | some s => .ok s
  | none => .error .notText

/-- Takes the value of an option. -/
def set (g : Given) (value : Bytes) : Flag → Except UsageError Given
  | .input => return { g with task := { g.task with input := ← path .input value } }
  | .secrets => return { g with task := { g.task with secretsFile := ← path .secrets value } }
  | .secret => return { g with task := { g.task with inline := g.task.inline ++ [← text value] } }
  | .chunkSize => do
    let shown ← text value
    match Text.readDecimal Text.wordLimit shown with
    | .ok n => return { g with task := { g.task with portionSize := n } }
    | .error reason => throw (.badValue shown .chunkSize reason)
  | .output => return { g with output := ← path .output value }
  | .marker => return { g with marker := ← text value }

/-- Takes an option with its value, if it has one. -/
def accept (g : Given) (flag : Flag) (value : Option Bytes) : Except UsageError Given := do
  let some value := value | throw (.missingValue flag)
  if flag ≠ .secret ∧ flag ∈ g.flags then throw (.repeated flag)
  let g ← g.set value flag
  return { g with flags := flag :: g.flags }

end Given

/-- An option that has been named, and its value once that is there. -/
abbrev Pending := Option (Flag × Option Bytes)

def Given.settle (g : Given) : Pending → Except UsageError Given
  | none => .ok g
  | some (flag, value) => g.accept flag value

/-- The option of a name among those of a command. -/
def Flag.find? (flags : List Flag) (name : Bytes) : Option Flag :=
  flags.find? fun flag => Bytes.ofText flag.name = name

/-- Reads the words behind a command; `none` if they ask for help. -/
def readWords (flags : List Flag) (g : Given) (pending : Pending) :
    List Bytes → Except UsageError (Option Given)
  | [] => return some (← g.settle pending)
  | w :: rest =>
    match Word.ofBytes w with
    | .noMoreOptions =>
      match rest with
      | [] => return some (← g.settle pending)
      | extra :: _ => throw (.unexpected (Text.lossy extra))
    | .long name value =>
      match Flag.find? flags name with
      | some flag => do
        let g ← g.settle pending
        match value with
        | none => readWords flags g (some (flag, none)) rest
        | some _ => readWords flags (← g.accept flag value) none rest
      | none =>
        if name = Bytes.ofText "help" then
          match value with
          | none => do
            discard (g.settle pending)
            return none
          | some v => throw (.unexpectedValue (Text.lossy v) "--help")
        else throw (.unexpected ("--" ++ Text.lossy name))
    | .short letters =>
      if letters.head? = some 'h'.val.toUInt8 then do
        discard (g.settle pending)
        return none
      else throw (.unexpected (Word.shownShort letters))
    | .plain =>
      match pending with
      | some (flag, none) => readWords flags g (some (flag, some w)) rest
      | _ => throw (.unexpected (Text.lossy w))

/-! ## Commands -/

def commandNames : List String := ["mask", "scan", "help"]

def isCommand (w : Bytes) : Bool := commandNames.any fun name => Bytes.ofText name = w

/-- Behind `help` stands at most a command; no command has others of its own. -/
def readHelp : List Bytes → Except UsageError Invocation
  | [] => .ok .help
  | w :: rest =>
    if isCommand w then
      match rest with
      | [] => .ok .help
      | extra :: _ => .error (.unknownCommand (Text.lossy extra))
    else .error (.unknownCommand (Text.lossy w))

/-- Reads all words of a command line, the program's own name left out. -/
def Invocation.ofWords : List Bytes → Except UsageError Invocation
  | [] => .error .noCommand
  | w :: rest =>
    if w = Bytes.ofText "mask" then do
      match ← readWords Flag.ofMask {} none rest with
      | some g =>
        return .run (.mask g.task g.output (g.marker.getD ({} : Settings).marker))
      | none => return .help
    else if w = Bytes.ofText "scan" then do
      match ← readWords Flag.ofScan {} none rest with
      | some g => return .run (.scan g.task)
      | none => return .help
    else if w = Bytes.ofText "help" then readHelp rest
    else match Word.ofBytes w with
      | .noMoreOptions =>
        match rest with
        | [] => .error .noCommand
        | extra :: _ =>
          if isCommand extra then .error (.unexpected (Text.lossy extra))
          else .error (.unknownCommand (Text.lossy extra))
      | .long name value =>
        let shown := "--" ++ Text.lossy name
        let flag? :=
          if name = Bytes.ofText "version" then some .version
          else if name = Bytes.ofText "help" then some .help
          else none
        match flag?, value with
        | some invocation, none => .ok invocation
        | some _, some v => .error (.unexpectedValue (Text.lossy v) shown)
        | none, _ => .error (.unexpected shown)
      | .short letters =>
        if letters.head? = some 'V'.val.toUInt8 then .ok .version
        else if letters.head? = some 'h'.val.toUInt8 then .ok .help
        else .error (.unexpected (Word.shownShort letters))
      | .plain => .error (.unknownCommand (Text.lossy w))

end Redaction
