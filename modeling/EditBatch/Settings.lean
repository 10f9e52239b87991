set_option autoImplicit false

/-!
# Settings

## Main definitions

* `EditBatch.Backend` — how a document is held in memory.
* `EditBatch.Settings` — what a user can set once for all runs.
-/

namespace EditBatch

/-- How a document is held in memory. -/
inductive Backend where
  /-- As a list of lines, for large documents. -/
  | rope
  /-- As one text. -/
  | flat
  deriving DecidableEq, Repr, Inhabited

namespace Backend

/-- The name of a backend in settings and on the command line. -/
def name : Backend → String
  | rope => "rope"
  | flat => "string"

/-- The backend with a given name. -/
def ofName? (name : String) : Option Backend :=
  [rope, flat].find? fun backend => backend.name == name

/-- A backend is found under its name. -/
theorem ofName?_name (backend : Backend) : ofName? backend.name = some backend := by
  cases backend <;> decide

end Backend

/-- What a user can set once for all runs. -/
structure Settings where
  /-- The text to show at the caret in the output. -/
  cursorMarker : Option String := none
  backend : Backend := .rope
  /-- Whether logs are kept. -/
  fileLogging : Bool := true
  deriving DecidableEq, Repr

end EditBatch
