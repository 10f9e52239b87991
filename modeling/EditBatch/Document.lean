import EditBatch.EditError
import EditBatch.LineBreak
set_option autoImplicit false

/-!
# Documents

A document is a text that can be asked about its lines and changed in place. How the text is
stored is left open: a store says how to make, read and change its documents, and everything
else is derived here from those few operations.

## Main definitions

* `EditBatch.Document` — the operations of a store.
* `EditBatch.Document.replace` — the one checked change from which edits are built.
* `EditBatch.Document.positionToOffset`, `EditBatch.Document.offsetToPosition` — between
  offsets and pairs of line and column, clamped to the document.

## Design

Insertion and removal do not check their arguments: `insert` clamps its offset, and `remove?`
clamps its range but may refuse one whose start lies after its end. A range in order is never
refused, which is what lets `replace` be a total function.
-/

namespace EditBatch

/-- A way to store documents, with the questions and the changes that depend on it. -/
class Document (D : Type) where
  /-- The document with a given text. -/
  ofText : String → D
  /-- The whole text. -/
  content : D → String
  /-- The number of characters. -/
  length : D → Nat
  /-- The number of lines, at least one. -/
  lineCount : D → Nat
  /-- Where a line lies. -/
  lineSpan : D → Nat → Except EditError LineSpan
  /-- The line an offset is on. The end of the document is on its last line. -/
  lineAt : D → Nat → Except EditError Nat
  /-- The text between two offsets, both clamped to the document. -/
  slice : D → Nat → Nat → String
  /-- The document with a text put in at an offset, which is clamped. -/
  insert : D → Nat → String → D
  /-- The document without the text between two offsets, both clamped. -/
  remove? : D → Nat → Nat → Option D
  /-- Only a range whose start lies after its end can be refused. -/
  remove?_isSome : ∀ (document : D) (start stop : Nat), start ≤ stop →
    (remove? document start stop).isSome = true

/-- A place in a document, both parts counted from zero. -/
structure Position where
  line : Nat
  column : Nat
  deriving DecidableEq, Repr

/-- Refuses a line the document does not have. -/
def checkLine (line count : Nat) : Except EditError Unit :=
  if line < count then .ok () else .error (.invalidLine line count)

/-- Refuses an offset beyond the end of the document. -/
def checkOffset (offset size : Nat) : Except EditError Unit :=
  if offset ≤ size then .ok () else .error (.invalidOffset offset 0 size)

namespace Document

variable {D : Type} [Document D]

/-- Whether the document has no text. -/
def isEmpty (document : D) : Bool := length document == 0

/-- The length of a line without its break, and zero for a line that does not exist. -/
def lineLength (document : D) (line : Nat) : Nat :=
  match lineSpan document line with
  | .ok span => span.length
  | .error _ => 0

/-- The text of a line without its break. -/
def line? (document : D) (line : Nat) : Option String :=
  match lineSpan document line with
  | .ok span => some (slice document span.start span.stop)
  | .error _ => none

/-- The offset of a position. A column beyond its line stands for the end of the line, and a
line beyond the document for the end of the document. -/
def positionToOffset (document : D) (position : Position) : Nat :=
  match lineSpan document position.line with
  | .ok span => span.start + min position.column span.length
  | .error _ => length document

/-- The position of an offset. An offset beyond the document stands for its end. -/
def offsetToPosition (document : D) (offset : Nat) : Position :=
  let clamped := min offset (length document)
  let line := match lineAt document clamped with
    | .ok line => line
    | .error _ => 0
  let start := match lineSpan document line with
    | .ok span => span.start
    | .error _ => 0
  ⟨line, clamped - start⟩

/-- Puts `text` in the place of the `count` characters at `offset`. A range that does not lie
inside the document is refused. -/
def replace (document : D) (offset count : Nat) (text : String) : Except EditError D :=
  if offset + count ≤ length document then
    let shortened :=
      if 0 < count then
        (remove? document offset (offset + count)).get
          (remove?_isSome document offset (offset + count) (Nat.le_add_right offset count))
      else document
    .ok (if text.isEmpty then shortened else insert shortened offset text)
  else .error (.invalidOffset offset count (length document))

end Document

end EditBatch
