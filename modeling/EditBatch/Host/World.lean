import EditBatch.FileSystem
import EditBatch.Host
set_option autoImplicit false

/-!
# A system in memory

## Main definitions

* `EditBatch.World` — files, variables and what has been written so far.
* The instance of `EditBatch.Host` on computations that change a world.
-/

namespace EditBatch

/-- A system as far as the program can tell: its files, its variables, and what has been
written to the output and to the place for messages. -/
structure World where
  files : FileSystem := {}
  environment : Environment := {}
  output : String := ""
  messages : String := ""

namespace World

/-- Writes a text to a file. -/
def writeText (path : Path) (text : String) (world : World) : Except FileError Unit × World :=
  match world.files.write path text.toUTF8 with
  | .ok files => (.ok (), { world with files := files })
  | .error cause => (.error cause, world)

/-- Makes a directory and those it lies in. -/
def makeDirectories (path : Path) (world : World) : Except FileError Unit × World :=
  let (files, outcome) := world.files.makeDirectories path
  (outcome, { world with files := files })

end World

/-- A world is a system to run on. -/
instance : Host (StateM World) where
  environment := do return (← get).environment
  readText path := do return (← get).files.readText path
  writeText path text := modifyGet (World.writeText path text)
  makeDirectories path := modifyGet (World.makeDirectories path)
  print text := modify fun world => { world with output := world.output ++ text }
  report text := modify fun world => { world with messages := world.messages ++ text }

end EditBatch
