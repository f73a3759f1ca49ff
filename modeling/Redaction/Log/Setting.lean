import Redaction.Bytes
import Redaction.Log
import Redaction.Regex.Expression
import Redaction.Text.Blank
import Redaction.Text.Decimal
import Redaction.Text.Numeric

/-!
# Filters as text

A setting writes a filter as rules with commas between them. A rule is a level for
everything, or a target, brackets or both, and perhaps an equals sign with a level:
`target[span{field=value}]=level`. A setting in which anything is wrong counts as none.

The value of a field is a number or a regular expression. It can be asked for only where
the field belongs to a span, so what it matches makes no difference here, but a value
that is neither makes the setting wrong.
-/

namespace Redaction.Log

open Text (isBlank)

/-! ## Levels -/

/-- The rank that a level's name or number stands for; 0 shows nothing. -/
def rank? (text : String) : Option Nat :=
  match Text.readDecimal Text.wordLimit text with
  | .ok n => if n ≤ 5 then some n else none
  | .error _ =>
    [("off", 0), ("error", 1), ("warn", 2), ("info", 3), ("debug", 4), ("trace", 5)].lookup
      text.toLower

/-- The rank behind an equals sign; without a text all is shown. -/
def rankOrAll? (level : String) : Option Nat :=
  if level.isEmpty then some Level.trace.rank else rank? level

/-! ## Parts of a rule

Where the parts of a rule stand is found in its text without the blanks in front, as
numbers of bytes, and there they are cut out of the whole text. Blanks in front
therefore move every part by their own bytes. No part begins or ends inside a character. -/

/-- The number of bytes that characters take. -/
def width (cs : List Char) : Nat := (String.ofList cs).utf8ByteSize

/-- All from as far behind the start as `before` is wide. -/
def cutRest? (text : String) (before : List Char) : Option String :=
  Bytes.toText? ((Bytes.ofText text).drop (width before))

/-- What is as wide as `part` and stands as far behind the start as `before` is wide. -/
def cut? (text : String) (before part : List Char) : Option String := do
  Bytes.toText? ((Bytes.ofText (← cutRest? text before)).take (width part))

/-- What stands in brackets: a span, and a field in braces. -/
structure Brackets where
  span : List Char
  field : Option (List Char)
deriving DecidableEq, Repr

/-- Brackets, behind the opening one, and what is behind them. -/
def readBrackets (text : List Char) : Option (Brackets × List Char) :=
  let span := text.takeWhile fun c => c ≠ ']' ∧ c ≠ '\x7b'
  match text.drop span.length with
  | ']' :: rest => some ({ span, field := none }, rest)
  | '\x7b' :: rest =>
    let field := rest.takeWhile (· ≠ '\x7d')
    match field, rest.drop field.length with
    | [], _ => none
    | _, '\x7d' :: ']' :: rest => some ({ span, field := some field }, rest)
    | _, _ => none
  | _ => none

/-- A field by its name, and perhaps by its value. -/
structure Field where
  name : String
  hasValue : Bool
deriving DecidableEq, Repr

/-- A name and, behind an equals sign, a value; a further equals sign ends it. -/
def readField (text : String) : Option Field :=
  let name := text.toList.takeWhile (· ≠ '=')
  match text.toList.drop name.length with
  | [] => some { name := String.ofList name, hasValue := false }
  | _ :: rest =>
    let value := rest.takeWhile (· ≠ '=')
    if Text.isFloat value || Regex.isRegex value then
      some { name := String.ofList name, hasValue := true }
    else none

/-! ## Rules and filters -/

def startsRule (c : Char) : Bool :=
  Text.isAlphanumeric c || c == '-' || c == ':' || c == '_' || c == '['

/-- The rank that is asked for behind everything else, all if none is. -/
def readLimit (text : String) (before : List Char) : List Char → Option Nat
  | '=' :: _ => do rankOrAll? (← cutRest? text (before ++ ['=']))
  | rest => if rest.all isBlank then some Level.trace.rank else none

/-- A level alone keeps the blanks beside it, and is a target unless it is the name or
the number of one without them. -/
def Rule.parse (text : String) : Option Rule := do
  let cs := text.toList.dropWhile isBlank
  guard (startsRule (← cs.head?))
  let name := cs.takeWhile fun c => c ≠ '=' ∧ c ≠ '['
  match cs.drop name.length with
  | [] => return ((rank? text).map ({ limit := · })).getD { target := text }
  | '[' :: behind =>
    let (brackets, rest) ← readBrackets behind
    let span ← cut? text (name ++ ['[']) brackets.span
    let field ← brackets.field.mapM fun field => do
      readField (← cut? text (name ++ '[' :: brackets.span ++ ['\x7b']) field)
    return {
      target := ← cut? text [] name
      inSpan := brackets.field.isNone || !span.isEmpty || field.any (·.hasValue)
      field := field.map (·.name)
      limit := ← readLimit text (cs.take (cs.length - rest.length)) rest }
  | rest => return { target := ← cut? text [] name, limit := ← readLimit text name rest }

/-- Rules with commas between them; a text without any shows errors only. -/
def Filter.parse (text : String) : Option Filter := do
  let parts := (text.splitOn ",").filter (· ≠ "")
  if parts.isEmpty then return Filter.upTo .error
  return (← parts.mapM Rule.parse).foldl Filter.add []

/-- The filter that a setting asks for; without one, or with one that cannot be read,
everything up to `info` is shown. -/
def Filter.ofSetting (setting : Option String) : Filter :=
  (setting.bind Filter.parse).getD (Filter.upTo .info)

end Redaction.Log
