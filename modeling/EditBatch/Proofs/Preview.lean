import EditBatch.Proofs.Refusal
import Mathlib.Data.List.MinMax
set_option autoImplicit false

/-!
# What a preview is worth

A preview follows a batch without a document. As long as no edit is refused, the batch in a
document goes through the same progress, whatever the document contains, and no edit is refused in
a document that reaches as far as the batch does.

## Main definitions

* `EditBatch.Batch.reach` — the greatest offset recorded in a batch.

## Main results

* `EditBatch.Progress.eq_foldl_of_run` — a run that is not refused makes the progress of a preview.
* `EditBatch.Progress.caret_foldl_eq_none_iff` — every edit places the caret.
* `EditBatch.Batch.apply_previewed` — what a preview says of a batch that is applied.
-/

namespace EditBatch

open Document

/-- The greatest offset of an edit. -/
def Edit.reach (edit : Edit) : ℕ := max edit.start.toNat edit.stop.toNat

/-- The greatest offset recorded in a batch, and zero if there is none. -/
def Batch.reach (batch : Batch) : ℕ := (batch.edits.map Edit.reach).foldr max 0

namespace Progress

variable (progress : Progress)

/-- **A run that is not refused** makes the progress that a preview makes, in whatever document. -/
lemma eq_foldl_of_run {D : Type} [Document D] {document left : D} {edits : List Edit}
    {reached : Progress} (h : progress.run document edits = (left, .ok reached)) :
    reached = edits.foldl next progress := by
  induction edits generalizing progress document with
  | nil =>
    rw [run, Prod.mk.injEq, Except.ok.injEq] at h
    exact h.2.symm
  | cons edit rest ih =>
    rw [run] at h
    cases hperform : progress.perform document edit with
    | error cause =>
      rw [hperform] at h
      cases h
    | ok changed =>
      rw [hperform] at h
      exact ih (progress.next edit) h

lemma isSome_caret_next (edit : Edit) : (progress.next edit).caret.isSome = true := by
  cases edit <;> rfl

/-- Every edit places the caret, and nothing takes it away. -/
lemma caret_foldl_eq_none_iff (edits : List Edit) :
    (edits.foldl next progress).caret = none ↔ progress.caret = none ∧ edits = [] := by
  induction edits generalizing progress with
  | nil => simp
  | cons edit rest ih =>
    have hplaced := progress.isSome_caret_next edit
    rw [List.foldl_cons, ih]
    constructor
    · rintro ⟨hnone, -⟩
      rw [hnone] at hplaced
      cases hplaced
    · rintro ⟨-, hcons⟩
      cases hcons

end Progress

namespace Batch

variable (batch : Batch) {D : Type} [Document D]

/-- No edit has an offset behind the reach of its batch. -/
lemma reach_le_reach {edit : Edit} (h : edit ∈ batch.edits) : edit.reach ≤ batch.reach :=
  List.le_max_of_le' 0 (List.mem_map_of_mem h) le_rfl

/-- The preview is the caret of the progress behind the last edit. -/
lemma preview_eq_caret_before : batch.preview = (batch.before batch.edits.length).caret := by
  rw [preview, before, first_length]

/-- A batch that is applied leaves the caret where its preview says. -/
lemma preview_eq_of_apply {document final : D} {caret : Option Offset}
    (h : batch.apply document = (final, .ok caret)) : batch.preview = caret := by
  rw [apply_eq, Prod.mk.injEq] at h
  rcases hrun : Progress.run {} document batch.edits with ⟨left, cause | reached⟩
  · rw [hrun] at h
    cases h.2
  · rw [hrun] at h
    rw [preview, ← Progress.eq_foldl_of_run _ hrun]
    exact Except.ok.inj h.2

/-- There is no caret if and only if there is no edit. -/
lemma preview_eq_none_iff : batch.preview = none ↔ batch.edits = [] := by
  rw [preview, Progress.caret_foldl_eq_none_iff]
  exact and_iff_right rfl

variable [LawfulDocument D]

/-- In a document that reaches as far as the batch, the batch is made if all inserted characters
have room. -/
lemma apply_of_reach_le {document : D} (reaches : batch.reach ≤ length document)
    (room : length document + insertedLength batch.edits ≤ Offset.greatest.toNat) :
    (batch.apply document).2 = .ok batch.preview := by
  have hreach : ∀ edit ∈ batch.edits, edit.start.toNat ≤ length document ∧
      edit.stop.toNat ≤ length document := by
    intro edit hmem
    have hedit := (batch.reach_le_reach hmem).trans reaches
    exact ⟨(le_max_left _ _).trans hedit, (le_max_right _ _).trans hedit⟩
  have hfits : ∀ edit ∈ batch.edits, edit.Fits (insertedLength batch.edits) := by
    intro edit hmem
    obtain ⟨hstart, hstop⟩ := hreach edit hmem
    exact ⟨by omega, by omega⟩
  rw [preview_eq_caret_before]
  exact batch.apply_of_inside document hfits fun edit hmem =>
    Edit.Within.not_overruns (hreach edit hmem).2

/-- **A preview predicts what a batch does to the caret**, whatever the offsets of its edits and
whatever the document. If the batch is made, the caret is where the preview says, the selection is
that place and nothing more, and there is a caret unless there is no edit. All the way, while no
edit is refused, the progress in the document is that of the preview, with the same steps in its
map. And the preview comes true in every document that reaches as far as the batch, if all inserted
characters have room.

**Proof sketch.** What an edit does to the progress does not depend on the document, so that a run
that is not refused is a preview (`Progress.eq_foldl_of_run`). In a document that reaches as far as
the batch no edit overruns (`apply_of_inside`). -/
theorem apply_previewed (document : D) :
    (∀ final caret, batch.apply document = (final, .ok caret) →
      batch.preview = caret ∧ batch.selection = caret.map (fun offset => ⟨offset, 0⟩) ∧
        (caret = none ↔ batch.edits = [])) ∧
    (∀ number left reached,
      Progress.run {} document (batch.first number).edits = (left, .ok reached) →
        reached = (batch.first number).edits.foldl Progress.next {}) ∧
    (batch.reach ≤ length document →
      length document + insertedLength batch.edits ≤ Offset.greatest.toNat →
      ∃ final, batch.apply document = (final, .ok batch.preview)) := by
  refine ⟨?_, ?_, ?_⟩
  · intro final caret happly
    obtain rfl := batch.preview_eq_of_apply happly
    exact ⟨rfl, rfl, batch.preview_eq_none_iff⟩
  · intro number left reached hrun
    exact Progress.eq_foldl_of_run _ hrun
  · intro reaches room
    exact ⟨(batch.apply document).1, Prod.ext rfl (batch.apply_of_reach_le reaches room)⟩

/-- An insertion, a deletion that swallows it, and a place for the caret inside what is gone. -/
theorem apply_previewed_swallowed :
    let batch : Batch := ⟨[.insertion 2 "ab", .deletion 1 4, .insertion 3 ""]⟩
    let document : FlatText := ⟨"hello"⟩
    batch.reach ≤ length document ∧
    length document + insertedLength batch.edits ≤ Offset.greatest.toNat ∧
    (∃ final, batch.apply document = (final, .ok (some 1))) ∧
    batch.selection = some ⟨1, 0⟩ := by
  intro batch document
  have reaches : batch.reach ≤ length document := by decide
  have room : length document + insertedLength batch.edits ≤ Offset.greatest.toNat := by decide
  obtain ⟨hmade, -, hrealised⟩ := apply_previewed batch document
  obtain ⟨final, happly⟩ := hrealised reaches room
  have hpreview : batch.preview = some 1 := by decide
  rw [hpreview] at happly
  exact ⟨reaches, room, ⟨final, happly⟩, (hmade final (some 1) happly).2.1⟩

end Batch

end EditBatch
