import EditBatch.Batch
import EditBatch.OffsetMap
set_option autoImplicit false

/-!
# Applying a batch

The edits of a batch are made one after the other. Each is first taken to the document as it
is by then, through the map of the edits before it; each leaves the caret at its own end.
The same course can be followed without a document, to see where the caret will be.

## Main definitions

* `EditBatch.Progress` — the offset map and the caret after some edits.
* `EditBatch.Progress.change?` — what an edit still has to do to the document.
* `EditBatch.Progress.next` — the progress after one more edit.
* `EditBatch.Batch.apply` — makes all edits of a batch in a document.
* `EditBatch.Batch.preview` — the caret after a batch, without a document.
-/

namespace EditBatch

/-- A change of a document in its own offsets: `text` takes the place of the `count`
characters at `offset`. -/
structure Change where
  offset : Offset
  count : Nat
  text : String
  deriving DecidableEq, Repr

/-- How far a batch has come. -/
structure Progress where
  /-- Takes offsets of the unchanged document to the document as it is now. -/
  map : OffsetMap := .identity
  /-- Where the last edit put the caret. -/
  caret : Option Offset := none
  deriving DecidableEq, Repr

namespace Progress

/-- The change by which an edit is made now. There is none for an empty text, an empty range,
or a range of which earlier deletions have left nothing. -/
def change? (progress : Progress) : Edit → Option Change
  | .insertion offset text =>
    if text.isEmpty then none else some ⟨progress.map.apply offset, 0, text⟩
  | .deletion start stop =>
    let first := progress.map.apply start
    let last := progress.map.apply stop
    if start < stop ∧ first < last then some ⟨first, (last - first).toNat, ""⟩ else none

/-- The progress after an edit. -/
def next (progress : Progress) : Edit → Progress
  | .insertion offset text =>
    let place := progress.map.apply offset
    ⟨progress.map.afterInsertion place text.length, some (place.advance text.length)⟩
  | .deletion start stop =>
    let first := progress.map.apply start
    ⟨if start < stop then progress.map.afterRemoval first (progress.map.apply stop)
      else progress.map, some first⟩

variable {D : Type} [Document D]

/-- Makes an edit in a document. -/
def perform (progress : Progress) (document : D) (edit : Edit) : Except EditError D :=
  match progress.change? edit with
  | none => .ok document
  | some change => Document.replace document change.offset.toNat change.count change.text

/-- Makes edits in order, up to the first one that does not fit the document. Gives the
document as the edits before it left it. -/
def run (progress : Progress) (document : D) : List Edit → D × Except EditError Progress
  | [] => (document, .ok progress)
  | edit :: rest =>
    match progress.perform document edit with
    | .error cause => (document, .error cause)
    | .ok changed => run (progress.next edit) changed rest

end Progress

/-- A selected stretch of a document. -/
structure Selection where
  offset : Offset := 0
  length : Nat := 0
  deriving DecidableEq, Repr

/-- The selection of nothing, at an offset. -/
def Selection.caret (offset : Offset) : Selection := ⟨offset, 0⟩

/-- Whether nothing is selected. -/
def Selection.isEmpty (selection : Selection) : Bool := selection.length == 0

namespace Batch

variable {D : Type} [Document D]

/-- Makes all edits in a document, and says where the caret is then. The document is given
also when an edit does not fit: the edits before it have been made. -/
def apply (batch : Batch) (document : D) : D × Except EditError (Option Offset) :=
  let (changed, outcome) := Progress.run {} document batch.edits
  (changed, outcome.map Progress.caret)

/-- Where the caret is after the batch, in any document that it fits. -/
def preview (batch : Batch) : Option Offset :=
  (batch.edits.foldl Progress.next {}).caret

/-- The selection that the batch leaves behind. -/
def selection (batch : Batch) : Option Selection := batch.preview.map Selection.caret

end Batch

end EditBatch
