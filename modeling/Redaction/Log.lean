import Redaction.Environment
import Redaction.Event
import Redaction.Text.Quoted

/-!
# Log lines

Each event has a level, a target that says which part of the program it comes from,
a message, and values with names. In a line the level has a color, and what is not said
by the event itself stands back, unless colors are not wanted.

A filter is a list of rules, each of which says for some events up to which level they
are shown; of two rules for the same events the later stays. Of the rules that fit an
event the most particular counts: the one with the longest target, then one that names
a field. Where no rule fits nothing is shown.
-/

namespace Redaction

inductive Level
  | error
  | warn
  | info
  | debug
  | trace
deriving DecidableEq, Repr

namespace Level

/-- Higher levels are more verbose. -/
def rank : Level → Nat
  | error => 1
  | warn => 2
  | info => 3
  | debug => 4
  | trace => 5

/-- The name of the level, as wide as the widest. -/
def label : Level → String
  | error => "ERROR"
  | warn => " WARN"
  | info => " INFO"
  | debug => "DEBUG"
  | trace => "TRACE"

/-- The color of the level, as terminals number them. -/
def color : Level → Nat
  | error => 31
  | warn => 33
  | info => 32
  | debug => 34
  | trace => 35

end Level

/-! ## Events as lines -/

namespace Event

def level : Event → Level
  | secretSkipped _ | noSecrets => .warn
  | secretsLoaded _ | maskFinished .. | scanFinished .. => .info
  | finderReady .. | maskDone _ => .debug
  | portionMatched .. | rangeHidden _ => .trace

def target : Event → String
  | secretSkipped _ => "secretmask::secrets"
  | noSecrets | secretsLoaded _ | maskFinished .. | scanFinished .. => "secretmask"
  | finderReady .. | portionMatched .. => "secretmask_core::matcher"
  | rangeHidden _ => "secretmask::redact"
  | maskDone _ => "secretmask::stream"

def message : Event → String
  | secretSkipped _ => "secret has neither value nor env, skipped"
  | noSecrets => "no secrets configured, input is passed through unchanged"
  | secretsLoaded _ => "secrets loaded"
  | finderReady .. => "stream matcher ready"
  | portionMatched .. => "chunk matched"
  | rangeHidden _ => "redacted range"
  | maskDone _ => "mask stream done"
  | maskFinished .. => "mask finished"
  | scanFinished .. => "scan finished"

/-- What the event carries beside its message, each with its name. -/
def values : Event → List (String × String)
  | secretSkipped name => [("name", name)]
  | noSecrets => []
  | secretsLoaded names => [("secrets", Text.quotedList names)]
  | finderReady patterns longest =>
    [("patterns", toString patterns), ("max_len", toString longest)]
  | portionMatched spans consumed =>
    [("matches", toString spans), ("stream_offset", toString consumed)]
  | rangeHidden range => [("start", toString range.start), ("end", toString range.stop)]
  | maskDone portions => [("chunks", toString portions)]
  | maskFinished bytesRead spans hiddenBytes =>
    [("bytes_read", toString bytesRead), ("matches", toString spans),
      ("bytes_redacted", toString hiddenBytes)]
  | scanFinished bytesRead portions spans =>
    [("bytes_read", toString bytesRead), ("chunks", toString portions),
      ("matches", toString spans)]

/-- The names of all that an event carries; the message is a field as well. -/
def fields (e : Event) : List String := "message" :: e.values.map (·.1)

end Event

namespace Log

/-- Colors are wanted unless the environment has words against them. -/
def colored (env : Environment) : Bool := (env.text? "NO_COLOR").all (·.isEmpty)

def dim : Nat := 2

def italic : Nat := 3

/-- Text in a color or a style, for a terminal. -/
def paint (colored : Bool) (style : Nat) (text : String) : String :=
  if colored then "\x1b[" ++ toString style ++ "m" ++ text ++ "\x1b[0m" else text

/-- An event as a line, without the time. -/
def line (colored : Bool) (e : Event) : String :=
  let values := e.values.map fun (name, value) =>
    paint colored italic name ++ paint colored dim "=" ++ value
  paint colored e.level.color e.level.label ++ " " ++
    paint colored dim e.target ++ paint colored dim ":" ++ " " ++
    " ".intercalate (e.message :: values)

end Log

/-! ## Filters -/

namespace Log

/-- Events whose target begins with `target` are shown up to the rank `limit`. With a
field only those that have it are meant, and with `inSpan` only those that happen
inside a span; no event does. -/
structure Rule where
  target : String := ""
  inSpan : Bool := false
  field : Option String := none
  limit : Nat := Level.trace.rank
deriving DecidableEq, Repr

abbrev Filter := List Rule

/-- Everything up to one level. -/
def Filter.upTo (level : Level) : Filter := [{ limit := level.rank }]

def Rule.Fits (r : Rule) (e : Event) : Prop :=
  r.inSpan = false ∧ r.target.toList.isPrefixOf e.target.toList ∧ ∀ f ∈ r.field, f ∈ e.fields

instance (r : Rule) (e : Event) : Decidable (r.Fits e) :=
  inferInstanceAs (Decidable (_ ∧ _ ∧ _))

/-- The rules are for the same events. -/
def Rule.rivals (a b : Rule) : Bool :=
  a.target == b.target && a.inSpan == b.inSpan && a.field == b.field

/-- Adds a rule, which takes the place of one for the same events. -/
def Filter.add (f : Filter) (r : Rule) : Filter := r :: f.filter (!·.rivals r)

/-- The first rule gives way to the second where both fit. -/
def Rule.givesWay (a b : Rule) : Bool :=
  if a.target.length ≠ b.target.length then a.target.length < b.target.length
  else match a.field, b.field with
    | none, _ => true
    | some _, none => false
    | some f, some g => f ≤ g

/-- The rule that counts for an event. -/
def Filter.rule? (f : Filter) (e : Event) : Option Rule :=
  (f.filter (·.Fits e)).foldl (fun best r =>
    if best.all (·.givesWay r) then some r else best) none

def Filter.shows (f : Filter) (e : Event) : Bool := (f.rule? e).any (e.level.rank ≤ ·.limit)

end Log

end Redaction
