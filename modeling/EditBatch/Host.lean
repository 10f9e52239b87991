import EditBatch.Environment
import EditBatch.FileError
set_option autoImplicit false

/-!
# The system that the program runs on

## Main definitions

* `EditBatch.Host` — all that the program asks of the system it runs on.
* `EditBatch.Host.attempt` — a request whose refusal ends a computation.
-/

namespace EditBatch

/-- All that the program asks of the system it runs on. -/
class Host (m : Type → Type) where
  /-- The variables of the environment. -/
  environment : m Environment
  /-- Reads a file as a text. -/
  readText : Path → m (Except FileError String)
  /-- Writes a text to a file, whatever stood in it before. -/
  writeText : Path → String → m (Except FileError Unit)
  /-- Makes a directory and those it lies in, as far as they are missing. -/
  makeDirectories : Path → m (Except FileError Unit)
  /-- Writes a text to the output. -/
  print : String → m Unit
  /-- Writes a text to the place for messages. -/
  report : String → m Unit

namespace Host

/-- A request whose refusal ends a computation, for a reason that the cause is put into. -/
def attempt {m : Type → Type} [Monad m] {ε α : Type} (request : m (Except FileError α))
    (reason : FileError → ε) : ExceptT ε m α :=
  (ExceptT.mk request).adapt reason

end Host

end EditBatch
