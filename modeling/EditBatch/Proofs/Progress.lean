import EditBatch.Batch.Application
import EditBatch.Proofs.LawfulDocument
import EditBatch.Proofs.OffsetMap
import Mathlib.Algebra.GroupWithZero.Nat
set_option autoImplicit false

/-!
# One edit after another

What one edit does to the offset map and to the document, and how the edits of a batch follow
each other up to the first that is refused.

## Main definitions

* `EditBatch.Edit.stop` — the last offset that an edit has.
* `EditBatch.insertedLength` — how many characters some edits put in.
* `EditBatch.Progress.splice` — what an edit does to a list.
* `EditBatch.Batch.before` — the progress just before an edit.

## Main results

* `EditBatch.Progress.toNat_apply_next_insertion`,
  `EditBatch.Progress.toNat_apply_next_deletion` — the map after one more edit.
* `EditBatch.Progress.splice_eq`, `EditBatch.Progress.exists_perform` — the document after one more
  edit.
* `EditBatch.Progress.run_append` — a run is cut between any two edits.
-/

namespace EditBatch

open Document

/-! ## Offsets and lengths of edits -/

namespace Edit

/-- The last offset that an edit has: the end of its range, or the place of its text. -/
def stop : Edit → Offset
  | insertion offset _ => offset
  | deletion _ stop => stop

/-- The text that an edit puts in. -/
def text : Edit → String
  | insertion _ text => text
  | deletion _ _ => ""

end Edit

/-- The number of characters that some edits put in together. -/
def insertedLength (edits : List Edit) : ℕ := (edits.map fun edit => edit.text.length).sum

lemma insertedLength_insertion (place : Offset) (text : String) :
    insertedLength [.insertion place text] = text.length := by
  simp [insertedLength, Edit.text]

@[simp] lemma insertedLength_append (xs ys : List Edit) :
    insertedLength (xs ++ ys) = insertedLength xs + insertedLength ys := by
  simp [insertedLength]

namespace Progress

variable (progress : Progress)

/-! ## The map after an edit -/

/-- After an insertion that does not reach the greatest offset, the offsets in front of its place
stay, and all others make room. -/
lemma toNat_apply_next_insertion (place : Offset) (text : String) (offset : Offset)
    (room : (progress.map.apply offset).toNat + text.length ≤ Offset.greatest.toNat) :
    ((progress.next (.insertion place text)).map.apply offset).toNat =
      if (progress.map.apply offset).toNat < (progress.map.apply place).toNat then
        (progress.map.apply offset).toNat
      else (progress.map.apply offset).toNat + text.length := by
  simp only [next, OffsetMap.apply_afterInsertion, Step.toNat_apply_shift]
  split_ifs <;> omega

/-- After a deletion, an offset loses what of the range lay in front of it. -/
lemma toNat_apply_next_deletion {start stop : Offset} (order : start ≤ stop) (offset : Offset) :
    ((progress.next (.deletion start stop)).map.apply offset).toNat =
      (progress.map.apply offset).toNat -
        (min (progress.map.apply offset).toNat (progress.map.apply stop).toNat -
          (progress.map.apply start).toNat) := by
  simp only [next]
  split_ifs with hrange
  · rw [OffsetMap.toNat_apply_afterRemoval]
  · obtain rfl := UInt64.le_antisymm order (UInt64.not_lt.mp hrange)
    omega

/-- The deletion of nothing leaves the map as it is. -/
lemma map_next_deletion_of_le {start stop : Offset} (empty : stop ≤ start) :
    (progress.next (.deletion start stop)).map = progress.map := by
  rw [next, if_neg (UInt64.not_lt.mpr empty)]

/-! ## Splices -/

/-- What the change of an edit does to a list, with `added` in the place of the text. -/
def splice {α : Type} (edit : Edit) (xs added : List α) : List α :=
  match progress.change? edit with
  | none => xs
  | some change =>
    xs.take change.offset.toNat ++ added ++ xs.drop (change.offset.toNat + change.count)

lemma map_splice {α β : Type} (f : α → β) (edit : Edit) (xs added : List α) :
    (progress.splice edit xs added).map f = progress.splice edit (xs.map f) (added.map f) := by
  unfold splice
  cases progress.change? edit with
  | none => rfl
  | some change => simp only [List.map_append, List.map_take, List.map_drop]

/-- The width of a range that is in order. -/
lemma add_toNat_sub {start stop : Offset} (order : start ≤ stop) :
    start.toNat + (stop - start).toNat = stop.toNat := by
  rw [UInt64.toNat_sub_of_le _ _ order]
  exact Nat.add_sub_cancel' (UInt64.le_iff_toNat_le.mp order)

/-- The change of an edit has the text of the edit and ends where the edit ends. -/
lemma change?_eq_some {edit : Edit} {change : Change} (h : progress.change? edit = some change) :
    change.text = edit.text ∧
      change.offset.toNat + change.count = (progress.map.apply edit.stop).toNat := by
  cases edit with
  | insertion place text =>
    simp only [change?] at h
    split_ifs at h
    cases h
    exact ⟨rfl, rfl⟩
  | deletion start stop =>
    simp only [change?] at h
    split_ifs at h with hrange
    cases h
    exact ⟨rfl, add_toNat_sub (UInt64.le_of_lt hrange.2)⟩

/-- **An edit is a splice**: its text takes the place of what stands between its offsets. -/
lemma splice_eq {α : Type} {edit : Edit} (order : edit.start ≤ edit.stop)
    (mono : progress.map.apply edit.start ≤ progress.map.apply edit.stop) (xs : List α)
    {added : List α} (empty : edit.text = "" → added = []) :
    progress.splice edit xs added =
      xs.take (progress.map.apply edit.start).toNat ++ added ++
        xs.drop (progress.map.apply edit.stop).toNat := by
  cases edit with
  | insertion place text =>
    by_cases htext : text = ""
    · rw [empty htext]
      simp [splice, change?, htext, Edit.start, Edit.stop]
    · simp [splice, change?, htext, Edit.start, Edit.stop]
  | deletion start stop =>
    simp only [Edit.start, Edit.stop] at order mono ⊢
    by_cases hrange : progress.map.apply start < progress.map.apply stop
    · have hne : start ≠ stop := by
        rintro rfl
        exact UInt64.lt_irrefl _ hrange
      have hlt := UInt64.lt_of_le_of_ne order hne
      simp only [splice, change?, hlt, hrange, and_self, if_true, add_toNat_sub mono]
    · -- earlier deletions have left nothing of the range
      have hmeet := UInt64.le_antisymm mono (UInt64.not_lt.mp hrange)
      rw [empty rfl, hmeet]
      simp [splice, change?, UInt64.lt_irrefl, hmeet]

/-! ## The document after an edit -/

section Document

variable {D : Type} [Document D] [LawfulDocument D]

/-- **An edit that has nothing to do beyond the document is made**, and splices its text into the
characters. -/
lemma exists_perform (document : D) (edit : Edit)
    (inside : (progress.change? edit).isSome →
      (progress.map.apply edit.stop).toNat ≤ length document) :
    ∃ changed, progress.perform document edit = .ok changed ∧
      chars changed = progress.splice edit (chars document) edit.text.toList := by
  unfold perform splice
  rcases hchange : progress.change? edit with _ | change
  · exact ⟨document, rfl, rfl⟩
  · obtain ⟨htext, hstop⟩ := progress.change?_eq_some hchange
    rw [← htext]
    apply exists_replace_eq_ok
    rw [hstop]
    exact inside (by rw [hchange]; rfl)

/-- **An edit whose offsets lie inside the document** puts its text in the place of the characters
between them. -/
lemma exists_perform_of_le (document : D) (edit : Edit) (order : edit.start ≤ edit.stop)
    (mono : progress.map.apply edit.start ≤ progress.map.apply edit.stop)
    (inside : (progress.map.apply edit.stop).toNat ≤ length document) :
    ∃ changed, progress.perform document edit = .ok changed ∧
      chars changed = (chars document).take (progress.map.apply edit.start).toNat ++
        edit.text.toList ++ (chars document).drop (progress.map.apply edit.stop).toNat := by
  obtain ⟨changed, hperform, hchars⟩ := progress.exists_perform document edit fun _ => inside
  refine ⟨changed, hperform, ?_⟩
  rw [hchars, progress.splice_eq order mono _ fun htext => by rw [htext]; rfl]

/-! ## Runs of edits -/

omit [LawfulDocument D] in
/-- A run of two stretches of edits is the run of the first and, unless that is refused, the run
of the second behind it. -/
lemma run_append (document : D) (xs ys : List Edit) :
    progress.run document (xs ++ ys) =
      match progress.run document xs with
      | (left, .ok reached) => reached.run left ys
      | (left, .error cause) => (left, .error cause) := by
  induction xs generalizing progress document with
  | nil => rfl
  | cons edit rest ih =>
    simp only [List.cons_append, run]
    cases progress.perform document edit with
    | error cause => rfl
    | ok changed => exact ih (progress.next edit) changed

omit [LawfulDocument D] in
/-- A run of one edit. -/
lemma run_singleton (document : D) (edit : Edit) :
    progress.run document [edit] =
      match progress.perform document edit with
      | .ok changed => (changed, .ok (progress.next edit))
      | .error cause => (document, .error cause) := by
  cases h : progress.perform document edit <;> simp [run, h]

end Document

end Progress

namespace Batch

variable (batch : Batch)

/-- The batch of the first edits. -/
def first (count : ℕ) : Batch := ⟨batch.edits.take count⟩

/-- The progress just before the edit with a given number. -/
def before (number : ℕ) : Progress := (batch.first number).edits.foldl Progress.next {}

@[simp] lemma before_zero : batch.before 0 = {} := rfl

lemma first_succ {number : ℕ} {edit : Edit} (h : batch.edits[number]? = some edit) :
    (batch.first (number + 1)).edits = (batch.first number).edits ++ [edit] := by
  simp [first, List.take_add_one, h]

/-- A batch is its first edits, the next one and the others. -/
lemma eq_first_append {number : ℕ} {edit : Edit} (h : batch.edits[number]? = some edit) :
    batch = ⟨(batch.first number).edits ++ edit :: batch.edits.drop (number + 1)⟩ := by
  obtain ⟨hlt, rfl⟩ := List.getElem?_eq_some_iff.mp h
  cases batch
  simp [first]

lemma first_length : batch.first batch.edits.length = batch := by
  simp [first]

/-- Up to the last edit there is an edit at every number. -/
lemma exists_edit {number : ℕ} (h : number < batch.edits.length) :
    ∃ edit, batch.edits[number]? = some edit :=
  ⟨_, List.getElem?_eq_getElem h⟩

/-- The first edits put in no more than all of them. -/
lemma insertedLength_first_le (number : ℕ) :
    insertedLength (batch.first number).edits ≤ insertedLength batch.edits := by
  conv_rhs => rw [← List.take_append_drop number batch.edits, insertedLength_append]
  exact Nat.le_add_right _ _

lemma before_succ {number : ℕ} {edit : Edit} (h : batch.edits[number]? = some edit) :
    batch.before (number + 1) = (batch.before number).next edit := by
  rw [before, first_succ batch h, List.foldl_append]
  rfl

/-- A batch is applied by a run of its edits from the start. -/
lemma apply_eq {D : Type} [Document D] (document : D) :
    batch.apply document = ((Progress.run {} document batch.edits).1,
      (Progress.run {} document batch.edits).2.map Progress.caret) := rfl

end Batch

end EditBatch
