import EditBatch.Proofs.Monotone
import EditBatch.Proofs.Preview
set_option autoImplicit false

/-!
# Where the caret is when all edits have been made

An edit that changes the document leaves the caret inside the document. An edit that changes nothing
is not compared with the document, so that its caret can be anywhere: but only if the edit starts
behind the end of the document as it was before all edits, since the offsets up to this end are
taken to offsets up to the end of the edited document.

## Main results

* `EditBatch.Document.length_of_replace` — the length of a changed document.
* `EditBatch.Progress.caret_next_le` — the caret of one edit.
* `EditBatch.Progress.toNat_apply_end_of_run` — the end of the document is taken to its end.
* `EditBatch.Batch.exists_last_of_length_lt_caret` — when a batch leaves the caret outside.
-/

namespace EditBatch

open Document

variable {D : Type} [Document D] [LawfulDocument D]

/-- What a replacement that is made says of lengths. -/
lemma Document.length_of_replace {document changed : D} {offset count : ℕ} {text : String}
    (h : replace document offset count text = .ok changed) :
    offset + count ≤ length document ∧
      length changed = length document - count + text.length := by
  obtain ⟨inside, hchars⟩ := chars_of_replace h
  refine ⟨inside, ?_⟩
  rw [LawfulDocument.length_eq] at inside
  rw [LawfulDocument.length_eq, LawfulDocument.length_eq, hchars]
  simp only [List.length_append, List.length_take, List.length_drop, String.length_toList]
  omega

namespace Progress

variable {progress : Progress} {document changed : D}

/-! ## The length after an edit -/

lemma change?_insertion_eq_none_iff {place : Offset} {text : String} :
    progress.change? (.insertion place text) = none ↔ text = "" := by
  simp only [change?, String.isEmpty_iff]
  split_ifs with htext <;> simp [htext]

lemma change?_deletion_eq_none_iff {start stop : Offset} :
    progress.change? (.deletion start stop) = none ↔
      ¬ (start < stop ∧ progress.map.apply start < progress.map.apply stop) := by
  simp only [change?]
  split_ifs with hrange <;> simp [hrange]

/-- An insertion that is made adds its text, which has its place in the document unless it is
empty. -/
lemma length_of_perform_insertion {place : Offset} {text : String}
    (h : progress.perform document (.insertion place text) = .ok changed) :
    length changed = length document + text.length ∧
      (text ≠ "" → (progress.map.apply place).toNat ≤ length document) := by
  by_cases htext : text = ""
  · simp only [perform, change?_insertion_eq_none_iff.mpr htext, Except.ok.injEq] at h
    subst h htext
    exact ⟨rfl, fun hne => absurd rfl hne⟩
  · simp only [perform, change?, String.isEmpty_iff, htext, if_false] at h
    obtain ⟨inside, hlength⟩ := length_of_replace h
    exact ⟨by omega, fun _ => by omega⟩

/-- A deletion that is made takes out what is left of its range, which lies in the document unless
nothing is left. -/
lemma length_of_perform_deletion {start stop : Offset}
    (h : progress.perform document (.deletion start stop) = .ok changed) :
    if start < stop ∧ progress.map.apply start < progress.map.apply stop then
      (progress.map.apply stop).toNat ≤ length document ∧
        length changed = length document -
          ((progress.map.apply stop).toNat - (progress.map.apply start).toNat)
    else length changed = length document := by
  split_ifs with hrange
  · simp only [perform, change?, if_pos hrange] at h
    obtain ⟨inside, hlength⟩ := length_of_replace h
    have hwidth := add_toNat_sub (UInt64.le_of_lt hrange.2)
    refine ⟨by omega, ?_⟩
    rw [hlength, String.length_empty]
    omega
  · simp only [perform, change?_deletion_eq_none_iff.mpr hrange, Except.ok.injEq] at h
    rw [h]

/-- An edit that is made adds no more than its text. -/
lemma length_of_perform_le {edit : Edit} (h : progress.perform document edit = .ok changed) :
    length changed ≤ length document + edit.text.length := by
  cases edit with
  | insertion place text => exact (length_of_perform_insertion h).1.le
  | deletion start stop =>
    have hlength := length_of_perform_deletion h
    split_ifs at hlength <;> omega

/-! ## The caret after an edit -/

/-- **The caret of an edit** that is made lies inside the document, if the edit changes the document
or starts inside it. -/
lemma caret_next_le {edit : Edit} (h : progress.perform document edit = .ok changed)
    (inside : progress.change? edit = none →
      (progress.map.apply edit.start).toNat ≤ length document)
    {caret : Offset} (hcaret : (progress.next edit).caret = some caret) :
    caret.toNat ≤ length changed := by
  cases edit with
  | insertion place text =>
    obtain ⟨hlength, hplace⟩ := length_of_perform_insertion h
    cases hcaret
    rw [Offset.toNat_advance, hlength]
    have hstart : (progress.map.apply place).toNat ≤ length document := by
      by_cases htext : text = ""
      · exact inside (change?_insertion_eq_none_iff.mpr htext)
      · exact hplace htext
    omega
  | deletion start stop =>
    have hlength := length_of_perform_deletion h
    cases hcaret
    split_ifs at hlength with hrange
    · have := UInt64.lt_iff_toNat_lt.mp hrange.2
      omega
    · rw [hlength]
      exact inside (change?_deletion_eq_none_iff.mpr hrange)

/-! ## The end of the document -/

/-- An edit that is made takes the end of the document to the end of the changed document, if the
inserted text has room. -/
lemma toNat_apply_end_of_perform {edit : Edit} {size : Offset}
    (h : progress.perform document edit = .ok changed)
    (hend : (progress.map.apply size).toNat = length document)
    (room : length document + edit.text.length ≤ Offset.greatest.toNat) :
    ((progress.next edit).map.apply size).toNat = length changed := by
  cases edit with
  | insertion place text =>
    obtain ⟨hlength, hplace⟩ := length_of_perform_insertion h
    simp only [Edit.text] at room
    rw [toNat_apply_next_insertion _ _ _ _ (by omega), hlength, hend]
    split_ifs with hbefore
    · by_cases htext : text = ""
      · simp [htext]
      · have := hplace htext
        omega
    · rfl
  | deletion start stop =>
    have hlength := length_of_perform_deletion h
    by_cases order : start < stop
    · rw [toNat_apply_next_deletion _ (UInt64.le_of_lt order), hend]
      simp only [order, true_and, UInt64.lt_iff_toNat_lt] at hlength
      split_ifs at hlength with hrange <;> omega
    · rw [map_next_deletion_of_le _ (UInt64.not_lt.mp order), hend]
      simp only [order, false_and, if_false] at hlength
      exact hlength.symm

/-- **The end of the document is taken to the end of the edited document**, if all inserted
characters have room. -/
lemma toNat_apply_end_of_run {edits : List Edit} {left : D} {reached : Progress} {size : Offset}
    (h : progress.run document edits = (left, .ok reached))
    (hend : (progress.map.apply size).toNat = length document)
    (room : length document + insertedLength edits ≤ Offset.greatest.toNat) :
    (reached.map.apply size).toNat = length left := by
  induction edits generalizing progress document with
  | nil =>
    cases h
    exact hend
  | cons edit rest ih =>
    rw [run] at h
    rcases hperform : progress.perform document edit with cause | changed
    · rw [hperform] at h
      cases h
    · rw [hperform] at h
      have hlength := length_of_perform_le hperform
      have hinserted : insertedLength (edit :: rest) = edit.text.length + insertedLength rest :=
        List.sum_cons
      rw [hinserted] at room
      exact ih h (toNat_apply_end_of_perform hperform hend (by omega)) (by omega)

end Progress

namespace Batch

variable {batch : Batch} {document final : D} {caret : Offset}

omit [LawfulDocument D] in
/-- A batch that leaves a caret has a last edit, which has left the document and the caret. -/
lemma exists_last_of_apply (h : batch.apply document = (final, .ok (some caret))) :
    ∃ front last left reached, batch.edits = front ++ [last] ∧
      Progress.run {} document front = (left, .ok reached) ∧
      reached.perform left last = .ok final ∧ (reached.next last).caret = some caret := by
  rcases List.eq_nil_or_concat' batch.edits with hnil | ⟨front, last, hedits⟩
  · rw [apply_eq, hnil] at h
    cases h
  rcases hfront : Progress.run {} document front with ⟨left, cause | reached⟩
  · rw [apply_eq, hedits, Progress.run_append, hfront] at h
    cases h
  rcases hlast : reached.perform left last with cause | changed
  · simp only [apply_eq, hedits, Progress.run_append, hfront, Progress.run_singleton, hlast] at h
    cases h
  · simp only [apply_eq, hedits, Progress.run_append, hfront, Progress.run_singleton, hlast,
      Prod.mk.injEq] at h
    obtain ⟨rfl, hcaret⟩ := h
    exact ⟨front, last, left, reached, hedits, hfront, hlast, Except.ok.inj hcaret⟩

/-- **When a batch leaves the caret outside the document**: only if its last edit changes nothing,
and, as long as all inserted characters have room, only if this edit starts behind the end of the
document as it was before all edits. -/
lemma exists_last_of_length_lt_caret (h : batch.apply document = (final, .ok (some caret)))
    (outside : length final < caret.toNat) :
    ∃ front last, batch.edits = front ++ [last] ∧
      (front.foldl Progress.next {}).change? last = none ∧
      (length document + insertedLength batch.edits ≤ Offset.greatest.toNat →
        length document < last.start.toNat) := by
  obtain ⟨front, last, left, reached, hedits, hfront, hlast, hcaret⟩ := exists_last_of_apply h
  have hreached := Progress.eq_foldl_of_run _ hfront
  refine ⟨front, last, hedits, ?_, fun room => ?_⟩
  · rw [← hreached]
    by_contra hchange
    have := Progress.caret_next_le hlast (fun hnone => absurd hnone hchange) hcaret
    omega
  · by_contra hstart
    rw [hedits, insertedLength_append] at room
    -- an offset up to the end of the document is taken to an offset up to its end
    have hend : (Offset.ofNat (length document)).toNat = length document :=
      Offset.toNat_ofNat_of_le (by omega)
    have hleft : (reached.map.apply (.ofNat (length document))).toNat = length left :=
      Progress.toNat_apply_end_of_run hfront hend (by omega)
    have proper : reached.map.Proper := by
      rw [hreached]
      exact Progress.proper_foldl OffsetMap.proper_identity front
    have hmono : reached.map.apply last.start ≤ reached.map.apply (.ofNat (length document)) :=
      proper.apply_mono (UInt64.le_iff_toNat_le.mpr (by omega))
    rw [UInt64.le_iff_toNat_le, hleft] at hmono
    have := Progress.caret_next_le hlast (fun _ => hmono) hcaret
    omega

end Batch

end EditBatch
