import Redaction.Bytes

/-!
# The environment

The environment is a list of lines, each made of a name, an equals sign and a value. A
line does not say where its name ends: `A=B=C` gives `A` the value `B=C`, and to one who
asks for `A=B` it gives the value `C`.
-/

namespace Redaction

/-- The variables as lines of bytes, which need not be text. -/
abbrev Environment := List Bytes

namespace Environment

/-- The value that a line gives to a name. -/
def valueIn? : (name text : Bytes) → Option Bytes
  | [], b :: value => if b = '='.toUInt8 then some value else none
  | n :: name, b :: text => if n = b then valueIn? name text else none
  | _, [] => none

/-- The value in the first line that gives one to the name, if it is text. The empty name
has none, and none holds the zero byte, with which a line ends. -/
def text? (env : Environment) (name : String) : Option String := do
  guard (name ≠ "" ∧ ¬ name.toList.contains '\x00')
  Bytes.toText? (← env.findSome? (valueIn? (Bytes.ofText name)))

end Environment

end Redaction
