/-!
# TOML values

A document is a table, a list of keys with their values; no key comes twice, and
their order means nothing. How a table came about decides what may still be added to
it, so each table says so.

Of floating-point numbers and date-times no more is kept than that they are there.
-/

namespace Redaction.Toml

/-- What brought a table into being. -/
inductive Origin
  /-- Braces; nothing can be added from outside. -/
  | braces
  /-- A header of its own. -/
  | header
  /-- The header of a table inside it. -/
  | implied
  /-- A dotted key. -/
  | dotted
deriving DecidableEq, Repr

inductive Value
  | string (text : String)
  | integer (n : Int)
  | float
  | boolean (b : Bool)
  | datetime
  | array (elements : List Value)
  | table (origin : Origin) (entries : List (String × Value))
  /-- Tables under headers in double brackets. -/
  | tables (latestFirst : List (List (String × Value)))

abbrev Entries := List (String × Value)

end Redaction.Toml
