import EditBatch.Document
import EditBatch.Text.Bytes
set_option autoImplicit false

/-!
# Documents stored as one string

A flat text keeps its characters as one string of bytes. Changes are made at byte offsets,
which have to fall between two characters; questions about lines scan the text.

## Main definitions

* `EditBatch.FlatText` — one string.
-/

namespace EditBatch

/-- A text kept as one string. -/
structure FlatText where
  text : String
  deriving DecidableEq, Repr

namespace FlatText

/-- The characters of the text. -/
def chars (document : FlatText) : List Char := document.text.toList

/-- Where a line lies. It ends where the next one starts, less its break. -/
def lineSpan (document : FlatText) (line : Nat) : Except EditError LineSpan := do
  let starts := lineStarts document.chars
  checkLine line starts.length
  let start := starts[line]?.getD 0
  let next := starts[line + 1]?.getD document.chars.length
  let text := (document.chars.drop start).take (next - start)
  return ⟨start, text.length - breakLength text⟩

/-- The line that an offset is on: the last one that starts at or before it. -/
def lineAt (document : FlatText) (offset : Nat) : Except EditError Nat := do
  checkOffset offset document.chars.length
  return ((lineStarts document.chars).takeWhile (· ≤ offset)).length - 1

/-- The text between two offsets. -/
def slice (document : FlatText) (start stop : Nat) : String :=
  let start := min start document.chars.length
  let stop := min stop document.chars.length
  String.ofList ((document.chars.drop start).take (stop - start))

/-- Puts a text in at an offset. -/
def insert (document : FlatText) (offset : Nat) (text : String) : FlatText :=
  ⟨String.ofList ((insertAtByte? document.chars (byteOffset document.chars offset)
    text.toList).get (by rw [insertAtByte?_byteOffset]; rfl))⟩

/-- Takes out the text between two offsets, unless the first lies at a later byte. -/
def remove? (document : FlatText) (start stop : Nat) : Option FlatText :=
  (removeBytes? document.chars (byteOffset document.chars start)
    (byteOffset document.chars stop)).map fun text => ⟨String.ofList text⟩

theorem remove?_isSome (document : FlatText) (start stop : Nat) (h : start ≤ stop) :
    (document.remove? start stop).isSome = true := by
  simp [remove?, removeBytes?_byteOffset document.chars h]

instance : Document FlatText where
  ofText text := ⟨text⟩
  content := text
  length document := document.chars.length
  lineCount document := (lineStarts document.chars).length
  lineSpan := lineSpan
  lineAt := lineAt
  slice := slice
  insert := insert
  remove? := remove?
  remove?_isSome := remove?_isSome

end FlatText

end EditBatch
