import EditBatch.FileError
import EditBatch.Json.Number
import EditBatch.Value.Message
set_option autoImplicit false

/-!
# Why there is no batch for a script

## Main definitions

* `EditBatch.ScriptError` — why a script cannot be loaded or compiled.
-/

namespace EditBatch

/-- The error of a JSON text in words. -/
def Json.Error.message : Json.Error → String
  | malformed => "not valid JSON"
  | truncated => "unexpected end of JSON"
  | misshapen cause => cause.message

/-- Why a script cannot be loaded or compiled. -/
inductive ScriptError where
  | unreadable (cause : FileError)
  /-- It is not written in YAML, or not a script. -/
  | badYaml
  | badJson (cause : Json.Error)
  | rejected (cause : Rejection)
  deriving DecidableEq, Repr

/-- The error in words. -/
def ScriptError.message : ScriptError → String
  | unreadable cause => s!"failed to read edit script: {cause.message}"
  | badYaml => "failed to parse YAML edit script: not a valid script"
  | badJson cause => s!"failed to parse JSON edit script: {cause.message}"
  | rejected cause => cause.message

/-- The error in words, followed by its cause. -/
def ScriptError.chain (error : ScriptError) : List String :=
  error.message :: match error with
    | unreadable cause => [cause.message]
    | badYaml => ["not a valid script"]
    | badJson cause => [cause.message]
    | rejected cause => [cause.cause.message]

end EditBatch
