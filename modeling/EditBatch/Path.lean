set_option autoImplicit false

/-!
# Paths

A path is a text of names with slashes between them. It keeps its spelling: empty names and
single dots in it lead nowhere, but are shown.

## Main definitions

* `EditBatch.Path` — a path.
* `EditBatch.Path.join` — a path inside of another one.
* `EditBatch.Path.ancestors`, `EditBatch.Path.parent?` — the directories that a path names.
* `EditBatch.Path.extension?` — the end of a file's name.
-/

namespace EditBatch

/-- A path, as it is written. -/
structure Path where
  text : String
  deriving DecidableEq, Repr, Inhabited

namespace Path

/-- What stands between the slashes of a text. -/
def pieces : List Char → List (List Char)
  | [] => [[]]
  | c :: rest =>
    if c = '/' then [] :: pieces rest
    else match pieces rest with
      | [] => [[c]]
      | piece :: more => (c :: piece) :: more

/-- Pieces with slashes between them. -/
def joinPieces : List (List Char) → List Char
  | [] => []
  | [piece] => piece
  | piece :: more => piece ++ '/' :: joinPieces more

/-- Whether a path starts at the root. -/
def isAbsolute (path : Path) : Bool := path.text.toList.head? == some '/'

/-- A path inside of another one, which it replaces if it starts at the root. -/
def join (base inner : Path) : Path :=
  if inner.isAbsolute then inner
  else if base.text.isEmpty || base.text.toList.getLast? == some '/' then
    ⟨base.text ++ inner.text⟩
  else ⟨base.text ++ "/" ++ inner.text⟩

/-- Whether a piece leads somewhere, given those in front of it in reverse. A single dot counts
at the very start of a path. -/
def leads (piece : List Char) (front : List (List Char)) : Bool :=
  !piece.isEmpty && (piece != ['.'] || front.isEmpty)

/-- The pieces of a path in reverse, without those at its end that lead nowhere. -/
def dropIdle : List (List Char) → List (List Char)
  | [] => []
  | piece :: front => if leads piece front then piece :: front else dropIdle front

/-- The path with given pieces in reverse. The root has no pieces but the empty one in front of
its slash. -/
def ofReversed : List (List Char) → Path
  | [[]] => ⟨"/"⟩
  | reversed => ⟨String.ofList (joinPieces reversed.reverse)⟩

/-- The pieces of a path in reverse, with one piece less each time. The empty piece in front of
a root stays. -/
def shorten (rooted : Bool) : List (List Char) → List (List (List Char))
  | [] => []
  | piece :: front =>
    if rooted && front.isEmpty then []
    else if leads piece front then
      (if rooted && (dropIdle front).isEmpty then [[]] else dropIdle front)
        :: shorten rooted front
    else shorten rooted front

/-- The path and the directories it lies in, the innermost one first. -/
def ancestors (path : Path) : List Path :=
  path :: (shorten path.isAbsolute (pieces path.text.toList).reverse).map ofReversed

/-- The directory that a path lies in. -/
def parent? (path : Path) : Option Path := path.ancestors[1]?

/-- The last name of a path, unless it leads upwards. -/
def fileName? (path : Path) : Option (List Char) :=
  match dropIdle (pieces path.text.toList).reverse with
  | [] => none
  | name :: _ => if name = ['.'] ∨ name = ['.', '.'] then none else some name

/-- What stands behind the last dot of the file's name. A dot at its start does not count. -/
def extension? (path : Path) : Option String := do
  let name ← path.fileName?
  let reversed := name.reverse
  let back := reversed.takeWhile (· ≠ '.')
  if back.length + 1 < name.length then return String.ofList back.reverse else none

end Path

end EditBatch
