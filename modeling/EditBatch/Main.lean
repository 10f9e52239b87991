import EditBatch.Program
set_option autoImplicit false

/-!
# The command

Runs the program on the system it is started on.
-/

namespace EditBatch

/-- The code of the system for a directory where a file is expected. -/
def directoryCode : UInt32 := 21

/-- The cause of an error of the system. -/
def fileErrorOf : IO.Error → FileError
  | .noFileOrDirectory .. => .notFound
  | .alreadyExists .. => .alreadyExists
  | .inappropriateType _ code _ =>
    if code = directoryCode then .isADirectory else .notADirectory
  | error => .other (toString error)

/-- An action of the system whose errors are kept as values. -/
def guarded {α : Type} (action : IO α) : IO (Except FileError α) := do
  try return .ok (← action)
  catch error => return .error (fileErrorOf error)

/-- The value of a variable as a path. -/
def pathVariable (name : String) : IO (Option Path) := do
  return (← IO.getEnv name).map Path.mk

/-- The system that the program is started on. -/
instance : Host IO where
  environment := do
    return {
      configHome := ← pathVariable "XDG_CONFIG_HOME"
      home := ← pathVariable "HOME" }
  readText path := do
    match ← guarded (IO.FS.readBinFile ⟨path.text⟩) with
    | .error cause => return .error cause
    | .ok content =>
      match String.fromUTF8? content with
      | some text => return .ok text
      | none => return .error .notText
  writeText path text := guarded (IO.FS.writeFile ⟨path.text⟩ text)
  makeDirectories path := guarded (IO.FS.createDirAll ⟨path.text⟩)
  print text := do
    let out ← IO.getStdout
    out.putStr text
    out.flush
  report text := IO.eprint text

end EditBatch

/-- Runs the program. -/
def main (arguments : List String) : IO UInt32 := do
  return (← EditBatch.Program.run arguments : UInt8).toUInt32
