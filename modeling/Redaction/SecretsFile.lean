import Redaction.Secret
import Redaction.Toml.Document

/-!
# Secrets files

A secrets file is a TOML document whose key `secrets` holds the entries; without
the key there are none. An entry is a table with the keys `name`, `value` and
`env`, each a string if it is there, or an array that gives them by position. Other
keys, and further elements, are not looked at. A date-time is taken for a table
that has none of the keys.
-/

namespace Redaction.SecretsFile

open Toml

def text? : Option Value → Option (Option String)
  | none => some none
  | some (.string s) => some (some s)
  | some _ => none

def entryOf (name value envVar : Option Value) : Option Entry := do
  return { name := ← text? name, value := ← text? value, envVar := ← text? envVar }

def entryOfTable (t : Entries) : Option Entry :=
  entryOf (t.lookup "name") (t.lookup "value") (t.lookup "env")

def entry? : Value → Option Entry
  | .table _ t => entryOfTable t
  | .array elements => entryOf elements[0]? elements[1]? elements[2]?
  | .datetime => some {}
  | _ => none

def entries? (document : Entries) : Option (List Entry) :=
  match document.lookup "secrets" with
  | none => some []
  | some (.array elements) => elements.mapM entry?
  | some (.tables elements) => elements.reverse.mapM entryOfTable
  | some _ => none

/-- The entries that a text holds, unless it is no secrets file. -/
def parse (text : String) : Option (List Entry) := Toml.parse text >>= entries?

end Redaction.SecretsFile
