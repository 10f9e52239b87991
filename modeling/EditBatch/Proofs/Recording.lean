import EditBatch.Batch
import Mathlib.Data.List.Basic
import Mathlib.Tactic.Common
set_option autoImplicit false

/-!
# What a recording adds to a batch

A recording that is not refused adds edits at the end of a batch, the same edits whatever the batch
holds. Several recordings, one after the other, add their edits in order.

## Main definitions

* `EditBatch.Recording.Records` — recordings that add given edits.

## Main results

* `EditBatch.Recording.Records.bind`, `EditBatch.Recording.Records.forM` — one recording after the
  other.
* `EditBatch.Recording.records_delete`, `EditBatch.Recording.records_deleteText`,
  `EditBatch.Recording.records_replace` — ranges in order are recorded.
-/

namespace EditBatch

namespace Recording

/-- Whether a recording is accepted and adds the given edits at the end of any batch. -/
def Records (recording : Recording Unit) (edits : List Edit) : Prop :=
  ∀ batch : Batch, recording.run.run batch = (.ok (), ⟨batch.edits ++ edits⟩)

/-- A recording that goes on with another one adds the edits of both. -/
lemma Records.bind {recording next : Recording Unit} {edits added : List Edit}
    (h : Records recording edits) (hnext : Records next added) :
    Records (recording >>= fun _ => next) (edits ++ added) := by
  intro batch
  rw [ExceptT.run_bind, StateT.run_bind, h batch, ← List.append_assoc]
  exact hnext ⟨batch.edits ++ edits⟩

/-- A loop of recordings adds the edits of all of them in order. -/
lemma Records.forM {α : Type} {record : α → Recording Unit} {edits : α → List Edit} {xs : List α}
    (h : ∀ x ∈ xs, Records (record x) (edits x)) : Records (xs.forM record) (xs.flatMap edits) := by
  induction xs with
  | nil =>
    intro batch
    rw [List.flatMap_nil, List.append_nil]
    rfl
  | cons x xs ih =>
    rw [List.forM_eq_forM, List.forM_cons, List.flatMap_cons]
    exact (h x List.mem_cons_self).bind (ih fun y hmem => h y (List.mem_cons_of_mem x hmem))

lemma records_insert (offset : Offset) (text : String) :
    Records (insert offset text) [.insertion offset text] :=
  fun _ => rfl

/-- The deletion of a range that is in order is recorded. -/
lemma records_delete {start stop : Offset} (order : start ≤ stop) :
    Records (delete start stop) [.deletion start stop] := by
  have hrange : Edit.ofRange start stop = .ok (.deletion start stop) := if_pos order
  intro batch
  rw [delete, hrange]
  rfl

/-- The deletion of a text that ends at an offset is recorded. -/
lemma records_deleteText {offset : Offset} {text : String}
    (inside : offset.toNat + text.length ≤ Offset.greatest.toNat) :
    Records (deleteText offset text) [.deletion offset (offset.advance text.length)] := by
  rw [deleteText, if_pos inside]
  exact records_delete (Offset.le_advance offset text.length)

/-- The replacement of a range that is in order is recorded as a deletion and an insertion. -/
lemma records_replace {start stop : Offset} (order : start ≤ stop) (text : String) :
    Records (replace start stop text) [.deletion start stop, .insertion start text] :=
  (records_delete order).bind (records_insert start text)

end Recording

end EditBatch
