import EditBatch.Path
set_option autoImplicit false

/-!
# Where a user's files lie

The settings of a user and the logs of the program lie in one directory, which two variables of
the environment decide.

## Main definitions

* `EditBatch.Environment` — the two variables.
* `EditBatch.Environment.directory?` — the directory of the program.
* `EditBatch.Environment.settingsFile?`, `EditBatch.Environment.logsDirectory?` — what lies in
  it.
-/

namespace EditBatch

/-- The variables of the environment that name directories of a user. -/
structure Environment where
  /-- The directory for settings of all programs. -/
  configHome : Option Path := none
  /-- The directory of the user. -/
  home : Option Path := none
  deriving DecidableEq, Repr

namespace Environment

/-- The directory for settings of all programs. An empty name counts as none, and without a
name it is a directory of the user's own. -/
def configDirectory? (environment : Environment) : Option Path :=
  match environment.configHome.filter fun path => !path.text.isEmpty with
  | some path => some path
  | none => environment.home.map (·.join ⟨".config"⟩)

/-- The directory of this program. -/
def directory? (environment : Environment) : Option Path :=
  environment.configDirectory?.map (·.join ⟨"docedit"⟩)

/-- The file that holds the settings. -/
def settingsFile? (environment : Environment) : Option Path :=
  environment.directory?.map (·.join ⟨"config.yaml"⟩)

/-- The directory that holds the logs. -/
def logsDirectory? (environment : Environment) : Option Path :=
  environment.directory?.map (·.join ⟨"logs"⟩)

end Environment

end EditBatch
