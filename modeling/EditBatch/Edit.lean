import EditBatch.EditError
import EditBatch.Offset
set_option autoImplicit false

/-!
# Edits

## Main definitions

* `EditBatch.Edit` — an insertion or a deletion, in offsets of the unchanged document.
* `EditBatch.Edit.ofRange` — the deletion of a range, refused if its start lies after its end.
* `EditBatch.Edit.render` — an edit as a line of a listing.
-/

namespace EditBatch

/-- One edit, in offsets of the document before any edit of its batch. -/
inductive Edit where
  /-- Puts `text` in at `offset`. The empty text only moves the caret. -/
  | insertion (offset : Offset) (text : String)
  /-- Takes out the characters from `start` up to `stop`. -/
  | deletion (start stop : Offset)
  deriving DecidableEq, Repr

namespace Edit

/-- The deletion of the characters from `start` up to `stop`. -/
def ofRange (start stop : Offset) : Except EditError Edit :=
  if start ≤ stop then .ok (.deletion start stop)
  else .error (.invalidRange start.toNat stop.toNat)

/-- Whether the edit changes no text, whatever the document. -/
def isNoop : Edit → Bool
  | insertion _ text => text.isEmpty
  | deletion start stop => start == stop

/-- The first offset that the edit touches. -/
def start : Edit → Offset
  | insertion offset _ => offset
  | deletion start _ => start

/-- The edit in a listing. -/
def render : Edit → String
  | insertion offset text => s!"ins({text}@{offset.toNat})"
  | deletion start stop => s!"del({start.toNat}->{stop.toNat})"

end Edit

end EditBatch
