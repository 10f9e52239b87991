import EditBatch.FileError
import EditBatch.Path
set_option autoImplicit false

/-!
# File systems

A file system says what stands where, and in which directory relative paths start. All that can
happen to it is that a file is written or a directory is made.

## Main definitions

* `EditBatch.FileSystem` — what stands where.
* `EditBatch.FileSystem.locate` — where a path leads.
* `EditBatch.FileSystem.read`, `EditBatch.FileSystem.write` — the content of a file.
* `EditBatch.FileSystem.makeDirectories` — makes a directory and those it lies in.

## Main results

* `EditBatch.FileSystem.lookup_put`, `EditBatch.FileSystem.lookup_put_of_ne` — what is put
  somewhere stands there, and nothing else changes.
-/

namespace EditBatch

/-- A place in a file system: the names on the way from the root to it. -/
abbrev Location := List (List Char)

/-- What stands at a place. -/
inductive Entry where
  | file (content : ByteArray)
  | directory
  /-- A file that cannot be opened. -/
  | locked (cause : FileError)

/-- What stands where. The root is always a directory. -/
structure FileSystem where
  entries : List (Location × Entry) := []
  /-- Where relative paths start. -/
  workingDirectory : Location := []

namespace FileSystem

/-- What stands at a place. -/
def lookup (files : FileSystem) (location : Location) : Option Entry :=
  if location.isEmpty then some .directory else files.entries.lookup location

/-- Entries with one put in the place of the one at its location, or behind all others. -/
def putEntry (location : Location) (entry : Entry) :
    List (Location × Entry) → List (Location × Entry)
  | [] => [(location, entry)]
  | other :: rest =>
    if other.1 = location then (location, entry) :: rest
    else other :: putEntry location entry rest

/-- The file system with something put at a place. -/
def put (files : FileSystem) (location : Location) (entry : Entry) : FileSystem :=
  { files with entries := putEntry location entry files.entries }

theorem lookup_putEntry (location : Location) (entry : Entry)
    (entries : List (Location × Entry)) :
    (putEntry location entry entries).lookup location = some entry := by
  induction entries with
  | nil => simp [putEntry]
  | cons other rest ih =>
    rw [putEntry]
    split
    · simp
    · next h =>
      obtain ⟨place, content⟩ := other
      have hne : (location == place) = false := by simpa using fun heq => h heq.symm
      simp [List.lookup_cons, hne, ih]

theorem lookup_putEntry_of_ne {location place : Location} (h : place ≠ location) (entry : Entry)
    (entries : List (Location × Entry)) :
    (putEntry location entry entries).lookup place = entries.lookup place := by
  have hne : (place == location) = false := by simpa using h
  induction entries with
  | nil => simp [putEntry, List.lookup_cons, hne]
  | cons other rest ih =>
    rw [putEntry]
    split
    · next heq =>
      obtain ⟨found, content⟩ := other
      simp only at heq
      subst heq
      simp [List.lookup_cons, hne]
    · obtain ⟨found, content⟩ := other
      simp [List.lookup_cons, ih]

/-- What is put somewhere stands there. -/
theorem lookup_put (files : FileSystem) {location : Location} (h : location ≠ [])
    (entry : Entry) : (files.put location entry).lookup location = some entry := by
  simp [lookup, put, h, lookup_putEntry]

/-- What is put somewhere changes no other place. -/
theorem lookup_put_of_ne (files : FileSystem) {location place : Location}
    (h : place ≠ location) (entry : Entry) :
    (files.put location entry).lookup place = files.lookup place := by
  simp [lookup, put, lookup_putEntry_of_ne h]

/-- Refuses to go on from what is no directory. -/
def enter (files : FileSystem) (location : Location) : Except FileError Unit :=
  match files.lookup location with
  | some .directory => .ok ()
  | some _ => .error .notADirectory
  | none => .error .notFound

/-- One step of a way. Every step starts in a directory, also one that leads nowhere. -/
def step (files : FileSystem) (location : Location) (piece : List Char) :
    Except FileError Location := do
  files.enter location
  if piece.isEmpty || piece == ['.'] then return location
  else if piece == ['.', '.'] then return location.dropLast
  else return location ++ [piece]

/-- Where the way of a path starts. -/
def start (files : FileSystem) (path : Path) : Location :=
  if path.isAbsolute then [] else files.workingDirectory

/-- Where a path leads. Nothing has to stand there. -/
def locate (files : FileSystem) (path : Path) : Except FileError Location :=
  if path.text.isEmpty then .error .notFound
  else (Path.pieces path.text.toList).foldlM files.step (files.start path)

/-- The content of a file. -/
def read (files : FileSystem) (path : Path) : Except FileError ByteArray := do
  match files.lookup (← files.locate path) with
  | some (.file content) => return content
  | some .directory => throw .isADirectory
  | some (.locked cause) => throw cause
  | none => throw .notFound

/-- The content of a file as a text. -/
def readText (files : FileSystem) (path : Path) : Except FileError String := do
  match String.fromUTF8? (← files.read path) with
  | some text => return text
  | none => throw .notText

/-- Where a path to be written leads. A slash at its end asks for a directory. -/
def locateTarget (files : FileSystem) (path : Path) : Except FileError Location := do
  if path.text.toList.getLast? == some '/' then
    let front := (path.text.toList.reverse.dropWhile (· == '/')).reverse
    let _ ← (Path.pieces front).foldlM files.step (files.start path)
    throw .isADirectory
  else files.locate path

/-- Writes a file, whatever stood in it before. -/
def write (files : FileSystem) (path : Path) (content : ByteArray) :
    Except FileError FileSystem := do
  let location ← files.locateTarget path
  match files.lookup location with
  | some .directory => throw .isADirectory
  | some (.locked cause) => throw cause
  | _ => return files.put location (.file content)

/-- Whether a path leads to a directory. -/
def isDirectory (files : FileSystem) (path : Path) : Bool :=
  match files.locate path with
  | .ok location =>
    match files.lookup location with
    | some .directory => true
    | _ => false
  | .error _ => false

/-- Makes a directory where nothing stands yet. -/
def makeDirectory (files : FileSystem) (path : Path) : Except FileError FileSystem := do
  let front := (path.text.toList.reverse.dropWhile (· == '/')).reverse
  let trimmed : Path := if front.isEmpty then path else ⟨String.ofList front⟩
  let location ← files.locate trimmed
  match files.lookup location with
  | some _ => throw .alreadyExists
  | none => return files.put location .directory

/-- Makes the first of some directories, and before it the others if it needs them. That it is
there already is no error. -/
def makeChain (files : FileSystem) : List Path → FileSystem × Except FileError Unit
  | [] => (files, .ok ())
  | path :: outer =>
    if path.text.isEmpty then (files, .ok ())
    else
      let accept (files : FileSystem) (cause : FileError) : FileSystem × Except FileError Unit :=
        if files.isDirectory path then (files, .ok ()) else (files, .error cause)
      match files.makeDirectory path with
      | .ok made => (made, .ok ())
      | .error .notFound =>
        match makeChain files outer with
        | (files, .error cause) => (files, .error cause)
        | (files, .ok ()) =>
          match files.makeDirectory path with
          | .ok made => (made, .ok ())
          | .error cause => accept files cause
      | .error cause => accept files cause

/-- Makes a directory and those it lies in, as far as they are missing. -/
def makeDirectories (files : FileSystem) (path : Path) : FileSystem × Except FileError Unit :=
  files.makeChain path.ancestors

end FileSystem

end EditBatch
