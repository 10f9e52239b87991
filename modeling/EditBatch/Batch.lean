import EditBatch.Document
import EditBatch.Edit
set_option autoImplicit false

/-!
# Batches and how they are recorded

A batch is a list of edits, all in offsets of the same unchanged document. Edits enter a batch
by recording; a call that is refused leaves the batch as it was.

## Main definitions

* `EditBatch.Batch` — edits in the order in which they apply.
* `EditBatch.Recording` — a computation that records edits and can be refused.
* `EditBatch.Recording.deleteLine` — records the removal of one line.
* `EditBatch.Batch.render` — the listing of a batch.
-/

namespace EditBatch

/-- Edits of one document in the order in which they apply. -/
structure Batch where
  edits : List Edit := []
  deriving DecidableEq, Repr

/-- The edits of a batch, one on each line. -/
def Batch.render (batch : Batch) : String :=
  "DocumentEdits(\n" ++ String.join (batch.edits.map fun edit => s!"   {edit.render}\n") ++ ")"

/-- A computation that adds edits to a batch. When it is refused, it gives the cause and the
batch that had been recorded until then. -/
abbrev Recording := ExceptT EditError (StateM Batch)

namespace Recording

/-- Adds an edit at the end. -/
def record (edit : Edit) : Recording Unit :=
  modify fun batch => ⟨batch.edits ++ [edit]⟩

/-- Goes on with a value, or stops with the cause why there is none. -/
def require {α : Type} (value : Except EditError α) : Recording α :=
  ExceptT.mk (pure value)

/-- Records the insertion of `text` at `offset`. -/
def insert (offset : Offset) (text : String) : Recording Unit :=
  record (.insertion offset text)

/-- Records the deletion of the characters from `start` up to `stop`. -/
def delete (start stop : Offset) : Recording Unit := do
  record (← require (Edit.ofRange start stop))

/-- Records the deletion of `text`, which stands at `offset`. A text that would end beyond the
greatest offset is refused. -/
def deleteText (offset : Offset) (text : String) : Recording Unit :=
  if offset.toNat + text.length ≤ Offset.greatest.toNat then
    delete offset (offset.advance text.length)
  else throw (.invalidRange offset.toNat Offset.greatest.toNat)

/-- Records a deletion and, in its place, an insertion. The caret ends behind the new text. -/
def replace (start stop : Offset) (text : String) : Recording Unit := do
  delete start stop
  insert start text

/-- Records a place for the caret. The text does not change. -/
def moveCaret (offset : Offset) : Recording Unit := insert offset ""

variable {D : Type} [Document D]

/-- Records the deletion of a line together with a break next to it: the break in front of it,
or for the first line the break behind it. An only line loses its text. -/
def deleteLine (snapshot : D) (line : Nat) : Recording Unit := do
  let target ← require (Document.lineSpan snapshot line)
  if 0 < line then
    let previous ← require (Document.lineSpan snapshot (line - 1))
    delete (.ofNat previous.stop) (.ofNat target.stop)
  else if line + 1 < Document.lineCount snapshot then
    let next ← require (Document.lineSpan snapshot (line + 1))
    delete (.ofNat target.start) (.ofNat next.start)
  else
    delete (.ofNat target.start) (.ofNat target.stop)

/-- Records the deletion of the line that an offset is on. -/
def deleteLineAt (snapshot : D) (offset : Nat) : Recording Unit := do
  deleteLine snapshot (← require (Document.lineAt snapshot offset))

end Recording

end EditBatch
