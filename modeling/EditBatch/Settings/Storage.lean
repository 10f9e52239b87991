import EditBatch.Host
import EditBatch.Yaml.Settings
set_option autoImplicit false

/-!
# Where settings are kept

Settings are read from a file. A file that is missing, or that is no valid settings, is no
reason not to run: it stands for the defaults.

## Main definitions

* `EditBatch.Settings.load`, `EditBatch.Settings.loadFrom` — reads settings.
* `EditBatch.Settings.save` — writes settings.
-/

namespace EditBatch

namespace Settings

/-- The settings that the content of a file stands for. -/
def ofContent (content : Except FileError String) : Settings :=
  match content with
  | .ok text => (ofYaml? text).getD {}
  | .error _ => {}

/-- Why settings cannot be saved. -/
inductive SaveError where
  | noDirectory (path : Path) (cause : FileError)
  | notWritten (path : Path) (cause : FileError)
  deriving DecidableEq, Repr

/-- The error in words, with its cause. -/
def SaveError.message : SaveError → String
  | noDirectory path cause =>
    s!"Failed to create config directory {path.text}: {cause.message}"
  | notWritten path cause => s!"Failed to write config to {path.text}: {cause.message}"

variable {m : Type → Type} [Monad m] [Host m]

/-- Reads settings from a file. -/
def loadFrom (path : Path) : m Settings := do
  return ofContent (← Host.readText path)

/-- Reads the settings of the user. -/
def load : m Settings := do
  match (← Host.environment).settingsFile? with
  | some path => loadFrom path
  | none => return {}

/-- Writes settings to a file, whose directory is made if it is missing. -/
def save (settings : Settings) (path : Path) : ExceptT SaveError m Unit := do
  if let some parent := path.parent? then
    Host.attempt (Host.makeDirectories parent) (.noDirectory parent)
  Host.attempt (Host.writeText path settings.toYaml) (.notWritten path)

end Settings

end EditBatch
