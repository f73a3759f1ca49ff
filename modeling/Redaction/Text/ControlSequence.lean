import Redaction.Bytes

/-!
# Control sequences

A terminal shows most characters and obeys the others: control characters, and the
sequences that an escape begins. `visible` is what it shows of a text.

Blanks that move to another place on the screen count as shown. Inside a sequence a
terminal obeys them at once and goes on with the sequence later: it shows what follows
up to the next character that it obeys. A character beyond ASCII that it shows ends
the sequence for good.
-/

namespace Redaction.Text

/-- What has been read of a sequence. -/
inductive ControlSequence
  /-- The escape. -/
  | escape
  /-- The escape and the signs that say what kind of sequence it is. -/
  | kind
  /-- A bracket behind the escape, and parameters. -/
  | parameters
  /-- The letter that addresses the device. -/
  | device
  | deviceParameters
  | deviceKind
  /-- A text up to the string terminator. -/
  | string
  /-- A text up to the bell. -/
  | title
deriving DecidableEq, Repr

namespace ControlSequence

/-- A blank inside the sequence is obeyed at once; elsewhere it is a part of the text. -/
def givesWay : ControlSequence → Bool
  | escape | kind | parameters => true
  | device | deviceParameters | deviceKind | string | title => false

/-- The byte that terminates a string. It counts also where it is a part of a longer
character. -/
def terminator : UInt8 := 0x9C

/-- The sequence with one more character; `none` if that is its last. -/
def next (s : ControlSequence) (c : Char) : Option ControlSequence :=
  match s with
  | escape =>
    if ' ' ≤ c ∧ c ≤ '/' then some kind
    else if c = '[' then some parameters
    else if c = ']' then some title
    else if c = 'P' then some device
    else if c = 'X' ∨ c = '^' ∨ c = '_' then some string
    else if '0' ≤ c ∧ c ≤ '~' then none
    else some escape
  | kind => if '0' ≤ c ∧ c ≤ '~' then none else some kind
  | parameters => if '@' ≤ c ∧ c ≤ '~' then none else some parameters
  | device =>
    if ' ' ≤ c ∧ c ≤ '/' then some deviceKind
    else if '0' ≤ c ∧ c ≤ '?' then some deviceParameters
    else if '@' ≤ c ∧ c ≤ '~' then some string
    else some device
  | deviceParameters =>
    if ' ' ≤ c ∧ c ≤ '/' then some deviceKind
    else if '<' ≤ c ∧ c ≤ '~' then some string
    else some deviceParameters
  | deviceKind => if '0' ≤ c ∧ c ≤ '~' then some string else some deviceKind
  | string => if terminator ∈ String.utf8EncodeChar c then none else some string
  | title => if c = '\x07' then none else some title

end ControlSequence

/-- Where in a text with sequences a terminal is. -/
inductive ControlState
  | text
  | inside (s : ControlSequence)
  /-- Behind a blank that a sequence has given way to. -/
  | within (s : ControlSequence)
deriving DecidableEq, Repr

namespace ControlState

/-- A tab, a line feed, a form feed or a carriage return. -/
def isMove (c : Char) : Bool := c == '\t' || c == '\n' || c == '\x0C' || c == '\r'

def isShown (c : Char) : Bool := isMove c || (' ' ≤ c && c ≠ '\x7F')

/-- Whether a character is shown, and what follows it. -/
def step (state : ControlState) (c : Char) : Bool × ControlState :=
  if c = '\x18' ∨ c = '\x1A' then (false, .text)
  else if c = '\x1B' then (false, .inside .escape)
  else
    match state with
    | .text => (isShown c, .text)
    | .inside s =>
      if isMove c && s.givesWay then (true, .within s)
      else (false, ((s.next c).map ControlState.inside).getD .text)
    | .within s =>
      if '\x7F' < c then (true, .text)
      else if isShown c then (true, .within s)
      else (false, .inside s)

def shownChars : ControlState → List Char → List Char
  | _, [] => []
  | state, c :: rest =>
    let (shown, state) := state.step c
    if shown then c :: shownChars state rest else shownChars state rest

end ControlState

/-- What a terminal shows of a text. -/
def visible (text : String) : String :=
  String.ofList (ControlState.shownChars .text text.toList)

end Redaction.Text
