import EditBatch.Host
import EditBatch.Json.Script
import EditBatch.Script.Error
import EditBatch.Yaml.Script
set_option autoImplicit false

/-!
# Loading scripts

## Main definitions

* `EditBatch.Script.Format` — the two written forms of scripts.
* `EditBatch.Script.ofText` — reads a script in one of them.
* `EditBatch.Script.load` — reads a script from a file.
-/

namespace EditBatch

namespace Script

/-- The written forms of scripts. -/
inductive Format where
  | json
  | yaml
  deriving DecidableEq, Repr

/-- The form of the script in a file. The ending of the file's name tells, in small or capital
letters. -/
def Format.ofPath (path : Path) : Format :=
  if path.extension?.map String.toLower = some "json" then .json else .yaml

/-- Reads a script. -/
def ofText (format : Format) (text : String) : Except ScriptError Script :=
  match format with
  | .json => (ofJson text).mapError .badJson
  | .yaml =>
    match ofYaml? text with
    | some script => .ok script
    | none => .error .badYaml

/-- Reads a script from a file. -/
def load {m : Type → Type} [Monad m] [Host m] (path : Path) : ExceptT ScriptError m Script := do
  let text ← Host.attempt (Host.readText path) .unreadable
  ofText (.ofPath path) text

end Script

end EditBatch
