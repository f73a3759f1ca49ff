import Redaction.Environment
import Redaction.FileTree
import Redaction.SecretsFile
import Redaction.Text.Lossy

/-!
# Loading the secrets of a run

The secrets of the file, if one is named, and then those given directly. When the
file cannot be loaded nothing is.
-/

namespace Redaction

inductive LoadError
  | unreadable (path : Bytes) (cause : FileError)
  | malformed
  | unset (cause : UnsetVariable)
deriving DecidableEq, Repr

/-- What went wrong, then what caused it; on a text that is no secrets file the parser has a
remark. -/
def LoadError.chain (remark : String) : LoadError → List String
  | .unreadable path cause => ["read secrets file " ++ Text.lossy path, cause.message]
  | .malformed => ["parse secrets file", remark]
  | .unset cause => [cause.message]

structure Loading where
  /-- The entries skipped, by name. -/
  skipped : List String := []
  secrets : Except LoadError (List Secret) := .ok []

namespace Loading

def ofText (lookup : String → Option String) (text : String) : Loading :=
  match SecretsFile.parse text with
  | none => { secrets := .error .malformed }
  | some entries =>
    let r := Entry.resolveAll lookup entries
    { skipped := r.skipped, secrets := r.secrets.mapError .unset }

def ofFile (tree : FileTree) (env : Environment) (path : Bytes) : Loading :=
  match tree.readText path with
  | .error cause => { secrets := .error (.unreadable path cause) }
  | .ok text => ofText env.text? text

/-- The secrets of the file, if there is one, then those given directly. -/
def gather (tree : FileTree) (env : Environment) (path : Option Bytes) (inline : List String) :
    Loading :=
  let file := (path.map (ofFile tree env)).getD {}
  { file with secrets := file.secrets.map (· ++ Secret.inline inline) }

end Loading

end Redaction
