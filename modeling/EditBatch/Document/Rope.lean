import EditBatch.Document
set_option autoImplicit false

/-!
# Documents stored line by line

A rope keeps its text cut into lines, each with its break, so that questions about lines are
answered by walking along the lines instead of scanning the text.

## Main definitions

* `EditBatch.Rope` — the lines of a text.
* `EditBatch.Rope.lineContaining` — the line that holds an offset.
-/

namespace EditBatch

/-- A text cut into its lines. -/
structure Rope where
  /-- The lines in order, each with its break. -/
  lines : List (List Char)
  /-- The lines are those of the text that they add up to. -/
  splitLines_flatten : splitLines lines.flatten = lines

namespace Rope

/-- The rope of a text. -/
def ofChars (text : List Char) : Rope where
  lines := splitLines text
  splitLines_flatten := by rw [flatten_splitLines]

/-- The text of a rope. -/
def chars (rope : Rope) : List Char := rope.lines.flatten

@[simp] theorem chars_ofChars (text : List Char) : (ofChars text).chars = text :=
  flatten_splitLines text

/-- The number of characters in a list of lines. -/
def totalLength : List (List Char) → Nat
  | [] => 0
  | line :: rest => line.length + totalLength rest

theorem length_flatten (lines : List (List Char)) : lines.flatten.length = totalLength lines := by
  induction lines with
  | nil => rfl
  | cons line rest ih => simp [totalLength, ih]

/-- The number of the line that holds an offset. Offsets beyond all lines are on the last. -/
def lineContaining (offset : Nat) : List (List Char) → Nat
  | [] => 0
  | [_] => 0
  | line :: next :: rest =>
    if offset < line.length then 0
    else lineContaining (offset - line.length) (next :: rest) + 1

/-- Where a line lies. Only its last two characters can belong to its break. -/
def lineSpan (rope : Rope) (line : Nat) : Except EditError LineSpan := do
  checkLine line rope.lines.length
  let text := rope.lines[line]?.getD []
  return ⟨totalLength (rope.lines.take line),
    text.length - breakLength (text.drop (text.length - 2))⟩

/-- The line that an offset is on. -/
def lineAt (rope : Rope) (offset : Nat) : Except EditError Nat := do
  checkOffset offset (totalLength rope.lines)
  return lineContaining offset rope.lines

/-- The text between two offsets. -/
def slice (rope : Rope) (start stop : Nat) : String :=
  let start := min start (totalLength rope.lines)
  let stop := min stop (totalLength rope.lines)
  if start < stop then String.ofList ((rope.chars.drop start).take (stop - start)) else ""

/-- Puts a text in at an offset. -/
def insert (rope : Rope) (offset : Nat) (text : String) : Rope :=
  let offset := min offset (totalLength rope.lines)
  ofChars (rope.chars.take offset ++ text.toList ++ rope.chars.drop offset)

/-- Takes out the text between two offsets. A range whose start lies after its end is empty. -/
def remove (rope : Rope) (start stop : Nat) : Rope :=
  let start := min start (totalLength rope.lines)
  let stop := min stop (totalLength rope.lines)
  if start < stop then ofChars (rope.chars.take start ++ rope.chars.drop stop) else rope

instance : Document Rope where
  ofText text := ofChars text.toList
  content rope := String.ofList rope.chars
  length rope := totalLength rope.lines
  lineCount rope := rope.lines.length
  lineSpan := lineSpan
  lineAt := lineAt
  slice := slice
  insert := insert
  remove? rope start stop := some (rope.remove start stop)
  remove?_isSome _ _ _ _ := rfl

end Rope

end EditBatch
