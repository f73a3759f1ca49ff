import Redaction.Bytes
import Redaction.Text.Quoted

/-!
# Secrets and where they come from

An entry of a secrets file names a secret and says where its value is: written
out, or in a variable of the environment. A written value wins, and then the
variable is not looked at. An entry with neither is skipped. An entry without a
name is called after its position among all entries, skipped ones included.

The first variable that is not set ends the resolution; entries behind it are not
looked at.
-/

namespace Redaction

structure Secret where
  name : String
  value : Bytes
deriving DecidableEq, Repr

/-- The secret without its value, for diagnostics. -/
def Secret.describe (s : Secret) : String :=
  "SecretSpec \x7b name: " ++ Text.quoted s.name ++ ", len: " ++ toString s.value.length ++ " \x7d"

structure Entry where
  name : Option String := none
  value : Option String := none
  envVar : Option String := none
deriving DecidableEq, Repr

/-- A variable that an entry needs is not set. -/
structure UnsetVariable where
  secret : String
  envVar : String
deriving DecidableEq, Repr

def UnsetVariable.message (e : UnsetVariable) : String :=
  s!"secret {e.secret}: environment variable {e.envVar} is not set"

/-! ## One entry -/

/-- What an entry comes to. -/
inductive Resolved
  | secret (s : Secret)
  | skipped (name : String)
  | unset (e : UnsetVariable)
deriving DecidableEq, Repr

namespace Resolved

def secret? : Resolved → Option Secret
  | secret s => some s
  | _ => none

def skipped? : Resolved → Option String
  | skipped name => some name
  | _ => none

def unset? : Resolved → Option UnsetVariable
  | unset e => some e
  | _ => none

end Resolved

/-- The entry at a position, with the values of variables given by `lookup`. -/
def Entry.resolve (lookup : String → Option String) (position : Nat) (e : Entry) : Resolved :=
  let name := e.name.getD s!"secret#{position}"
  match e.value, e.envVar with
  | some value, _ => .secret ⟨name, Bytes.ofText value⟩
  | none, none => .skipped name
  | none, some envVar =>
    match lookup envVar with
    | some value => .secret ⟨name, Bytes.ofText value⟩
    | none => .unset ⟨name, envVar⟩

/-! ## All entries -/

/-- The secrets of a list of entries, with the names of the entries skipped on the way. -/
structure Resolution where
  skipped : List String := []
  secrets : Except UnsetVariable (List Secret) := .ok []

def Entry.resolveAll (lookup : String → Option String) (entries : List Entry) : Resolution :=
  let resolved := entries.mapIdx (Entry.resolve lookup)
  match resolved.findSome? Resolved.unset? with
  | some e =>
    { skipped := (resolved.takeWhile (·.unset?.isNone)).filterMap Resolved.skipped?
      secrets := .error e }
  | none =>
    { skipped := resolved.filterMap Resolved.skipped?
      secrets := .ok (resolved.filterMap Resolved.secret?) }

/-- Secrets given without a file are called after their position. -/
def Secret.inline (values : List String) : List Secret :=
  values.mapIdx fun position value => ⟨s!"arg#{position}", Bytes.ofText value⟩

end Redaction
