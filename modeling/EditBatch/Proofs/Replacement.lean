import EditBatch.Proofs.Progress
import EditBatch.Proofs.Recording
import Mathlib.Order.Basic
set_option autoImplicit false

/-!
# Replacements

The replacement of a range by a text is recorded as two edits, a deletion and an insertion. Where
the range has not been touched by earlier edits, they exchange it for the text and move what
stands behind it.

## Main definitions

* `EditBatch.Replacement` — the range and the text, and the edits by which it is made.
* `EditBatch.Progress.replaced` — the progress after a replacement.

## Main results

* `EditBatch.Replacement.run_forM_record` — replacements are recorded one after the other.
* `EditBatch.Progress.toNat_apply_replaced`, `EditBatch.Progress.exists_run_edits` — what a
  replacement does to offsets and to the document.
-/

namespace EditBatch

open Document

/-- The replacement of a range of a document by a text. -/
structure Replacement where
  start : Offset
  stop : Offset
  text : String
  deriving DecidableEq, Repr

namespace Replacement

/-- The edits by which a replacement is made. -/
def edits (replacement : Replacement) : List Edit :=
  [.deletion replacement.start replacement.stop, .insertion replacement.start replacement.text]

/-- Records a replacement. -/
def record (replacement : Replacement) : Recording Unit :=
  Recording.replace replacement.start replacement.stop replacement.text

/-- **Replacements of ranges that are in order are recorded**, one after the other. -/
lemma run_forM_record (replacements : List Replacement)
    (ordered : ∀ replacement ∈ replacements, replacement.start ≤ replacement.stop)
    (batch : Batch) :
    (replacements.forM record).run.run batch =
      (.ok (), ⟨batch.edits ++ replacements.flatMap edits⟩) := by
  have hrecord : Recording.Records (replacements.forM record) (replacements.flatMap edits) :=
    Recording.Records.forM fun replacement hmem =>
      Recording.records_replace (ordered replacement hmem) replacement.text
  exact hrecord batch

/-- The number of characters in the texts of some replacements. -/
def textLength (list : List Replacement) : ℕ :=
  (list.map fun replacement => replacement.text.length).sum

lemma textLength_append (xs ys : List Replacement) :
    textLength (xs ++ ys) = textLength xs + textLength ys := by
  simp [textLength]

lemma textLength_singleton (replacement : Replacement) :
    textLength [replacement] = replacement.text.length := by
  simp [textLength]

end Replacement

/-! ## One replacement -/

namespace Progress

variable (progress : Progress) (replacement : Replacement)

/-- The progress after a replacement. -/
def replaced : Progress := replacement.edits.foldl next progress

variable {replacement} (order : replacement.start ≤ replacement.stop)
  (mono : progress.map.apply replacement.start ≤ progress.map.apply replacement.stop)

include order mono

/-- The deletion of a replacement leaves the start of its range where it is. -/
lemma toNat_apply_start_next_deletion :
    ((progress.next (.deletion replacement.start replacement.stop)).map.apply
      replacement.start).toNat = (progress.map.apply replacement.start).toNat := by
  rw [UInt64.le_iff_toNat_le] at mono
  rw [progress.toNat_apply_next_deletion order]
  omega

/-- **A replacement moves** no offset in front of its range, and all behind it by what the text is
longer or shorter than the range. -/
lemma toNat_apply_replaced (offset : Offset)
    (room : (progress.map.apply offset).toNat + replacement.text.length ≤
      Offset.greatest.toNat) :
    ((progress.map.apply offset).toNat < (progress.map.apply replacement.start).toNat →
      ((progress.replaced replacement).map.apply offset).toNat =
        (progress.map.apply offset).toNat) ∧
    ((progress.map.apply replacement.stop).toNat ≤ (progress.map.apply offset).toNat →
      ((progress.replaced replacement).map.apply offset).toNat +
          ((progress.map.apply replacement.stop).toNat -
            (progress.map.apply replacement.start).toNat) =
        (progress.map.apply offset).toNat + replacement.text.length) := by
  have hstart := progress.toNat_apply_start_next_deletion order mono
  have hoffset := progress.toNat_apply_next_deletion order offset
  have hmoved := (progress.next (.deletion replacement.start replacement.stop))
    |>.toNat_apply_next_insertion replacement.start replacement.text offset (by omega)
  rw [hstart, hoffset] at hmoved
  rw [UInt64.le_iff_toNat_le] at mono
  unfold replaced
  simp only [Replacement.edits, List.foldl_cons, List.foldl_nil, hmoved]
  constructor
  · intro hlt
    rw [if_pos (by omega)]
    omega
  · intro hle
    rw [if_neg (by omega)]
    omega

/-- The caret is behind the text of a replacement. -/
lemma toNat_caret_replaced
    (room : (progress.map.apply replacement.start).toNat + replacement.text.length ≤
      Offset.greatest.toNat) :
    (progress.replaced replacement).caret.map UInt64.toNat =
      some ((progress.map.apply replacement.start).toNat + replacement.text.length) := by
  have hstart := progress.toNat_apply_start_next_deletion order mono
  unfold replaced
  simp only [Replacement.edits, List.foldl_cons, List.foldl_nil]
  rw [next, Option.map_some, Offset.toNat_advance, hstart, Nat.min_eq_left room]

/-- **A replacement inside the document** puts its text in the place of its range. -/
lemma exists_run_edits {D : Type} [Document D] [LawfulDocument D] (document : D)
    {front content behind : List Char} (htext : chars document = front ++ content ++ behind)
    (hstart : (progress.map.apply replacement.start).toNat = front.length)
    (hstop : (progress.map.apply replacement.stop).toNat = (front ++ content).length) :
    ∃ changed,
      progress.run document replacement.edits = (changed, .ok (progress.replaced replacement)) ∧
      chars changed = front ++ replacement.text.toList ++ behind := by
  have htake : (chars document).take front.length = front := by
    rw [htext, List.append_assoc, List.take_left]
  have hdrop : (chars document).drop (front.length + content.length) = behind := by
    rw [htext, ← List.length_append, List.drop_left]
  have hinside : (front ++ content).length ≤ length document := by
    have hlength := congrArg List.length htext
    rw [List.length_append] at hlength
    rw [LawfulDocument.length_eq]
    omega
  -- the deletion
  obtain ⟨shorter, hdelete, hshorter⟩ := progress.exists_perform_of_le document
    (.deletion replacement.start replacement.stop) order mono (hstop.trans_le hinside)
  have hcut : chars shorter = front ++ behind := by
    simpa [Edit.start, Edit.stop, Edit.text, hstart, hstop, htake, hdrop] using hshorter
  -- the insertion
  have hplace := (progress.toNat_apply_start_next_deletion order mono).trans hstart
  obtain ⟨changed, hinsert, hchanged⟩ :=
    (progress.next (.deletion replacement.start replacement.stop)).exists_perform_of_le shorter
      (.insertion replacement.start replacement.text) (UInt64.le_refl _) (UInt64.le_refl _) (by
        rw [Edit.stop, hplace, LawfulDocument.length_eq, hcut, List.length_append]
        exact Nat.le_add_right _ _)
  simp only [Edit.start, Edit.stop, Edit.text, hplace, hcut, List.take_left, List.drop_left]
    at hchanged
  refine ⟨changed, ?_, hchanged⟩
  simp only [Replacement.edits, run, hdelete, hinsert]
  rfl

end Progress

end EditBatch
