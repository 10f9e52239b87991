import EditBatch.Proofs.Caret
import EditBatch.Proofs.Deletions
set_option autoImplicit false

/-!
# Deletions of which nothing is left

A deletion is skipped if both ends of its range are at the same place by then. Two neighbours come
together in two ways only: a deletion takes out what is between them, or an insertion moves both to
the greatest offset, where moves stop. So each character of a skipped range has been deleted before,
or its offset has come to the greatest one.

## Main definitions

* `EditBatch.Batch.Saturated` — offsets that have come to the greatest one.

## Main results

* `EditBatch.Progress.clears_of_meet` — how one edit brings two neighbours together.
* `EditBatch.Batch.covers_of_meet` — how a batch does.
* `EditBatch.Batch.not_covers_of_run` — what lies behind the document is not deleted.
* `EditBatch.Batch.swallowed_of_skipped` — what a skipped deletion tells of the edits before it.
-/

namespace EditBatch

open Document

namespace Progress

variable {progress : Progress} {offset later : Offset}

/-- **One edit brings two neighbours together** only if it deletes the character between them or
moves the first of them to the greatest offset. -/
lemma clears_of_meet (proper : progress.map.Proper) (neighbours : later.toNat = offset.toNat + 1)
    (apart : progress.map.apply offset < progress.map.apply later) {edit : Edit}
    (meet : (progress.next edit).map.apply offset = (progress.next edit).map.apply later) :
    edit.clears (offset.toNat + 1) = true ∨
      (progress.next edit).map.apply offset = Offset.greatest := by
  rw [UInt64.lt_iff_toNat_lt] at apart
  cases edit with
  | insertion place text =>
    right
    simp only [next, OffsetMap.apply_afterInsertion] at meet ⊢
    rw [← UInt64.toNat_inj] at meet ⊢
    have := Offset.toNat_le_greatest (progress.map.apply later)
    simp only [Step.toNat_apply_shift] at meet ⊢
    split_ifs at meet ⊢ <;> omega
  | deletion start stop =>
    left
    have order : start < stop := by
      by_contra hempty
      rw [map_next_deletion_of_le _ (UInt64.not_lt.mp hempty)] at meet
      rw [meet] at apart
      omega
    rw [← UInt64.toNat_inj, toNat_apply_next_deletion _ (UInt64.le_of_lt order),
      toNat_apply_next_deletion _ (UInt64.le_of_lt order)] at meet
    -- both places lie in the range, and so do both offsets, as the map keeps their order
    have hstart : progress.map.apply start < progress.map.apply later :=
      UInt64.lt_iff_toNat_lt.mpr (by omega)
    have hstop : progress.map.apply offset < progress.map.apply stop :=
      UInt64.lt_iff_toNat_lt.mpr (by omega)
    have hafter := UInt64.lt_iff_toNat_lt.mp (proper.lt_of_apply_lt_apply hstart)
    have hbefore := UInt64.lt_iff_toNat_lt.mp (proper.lt_of_apply_lt_apply hstop)
    simp only [Edit.clears, Bool.and_eq_true, decide_eq_true_eq]
    omega

variable {D : Type} [Document D] [LawfulDocument D]

/-- An edit that is made leaves an offset behind the document behind it, unless the offset comes to
the greatest one. -/
lemma length_le_apply_of_perform {document changed : D} {edit : Edit}
    (h : progress.perform document edit = .ok changed)
    (behind : length document ≤ (progress.map.apply offset).toNat)
    (below : (progress.next edit).map.apply offset ≠ Offset.greatest) :
    length changed ≤ ((progress.next edit).map.apply offset).toNat := by
  cases edit with
  | insertion place text =>
    obtain ⟨hlength, hplace⟩ := length_of_perform_insertion h
    simp only [next, OffsetMap.apply_afterInsertion] at below ⊢
    rw [ne_eq, ← UInt64.toNat_inj] at below
    rw [Step.toNat_apply_shift] at below ⊢
    by_cases htext : text = ""
    · subst htext
      rw [String.length_empty] at *
      split_ifs at below ⊢ <;> omega
    · have := hplace htext
      split_ifs at below ⊢ <;> omega
  | deletion start stop =>
    have hlength := length_of_perform_deletion h
    by_cases order : start < stop
    · rw [toNat_apply_next_deletion _ (UInt64.le_of_lt order)]
      simp only [order, true_and, UInt64.lt_iff_toNat_lt] at hlength
      split_ifs at hlength <;> omega
    · rw [map_next_deletion_of_le _ (UInt64.not_lt.mp order)]
      simp only [order, false_and, if_false] at hlength
      omega

/-- An edit that is made deletes no character behind the document, if the places of the character
and of the next one are apart: it would do something, and do it up to a place behind the
document. -/
lemma clears_eq_false_of_perform (proper : progress.map.Proper)
    (neighbours : later.toNat = offset.toNat + 1)
    (apart : progress.map.apply offset ≠ progress.map.apply later) {document changed : D}
    {edit : Edit} (h : progress.perform document edit = .ok changed)
    (behind : length document ≤ (progress.map.apply offset).toNat) :
    edit.clears (offset.toNat + 1) = false := by
  by_contra hclears
  cases edit with
  | insertion place text => exact hclears rfl
  | deletion start stop =>
    simp only [Edit.clears, Bool.not_eq_false, Bool.and_eq_true, decide_eq_true_eq] at hclears
    have hstart : progress.map.apply start ≤ progress.map.apply offset :=
      proper.apply_mono (UInt64.le_iff_toNat_le.mpr (by omega))
    have hstop : progress.map.apply later ≤ progress.map.apply stop :=
      proper.apply_mono (UInt64.le_iff_toNat_le.mpr (by omega))
    have hle : progress.map.apply offset ≤ progress.map.apply later :=
      proper.apply_mono (UInt64.le_iff_toNat_le.mpr (by omega))
    have hlt := UInt64.lt_of_le_of_ne hle apart
    have hmade := length_of_perform_deletion h
    rw [UInt64.le_iff_toNat_le] at hstart hstop
    rw [UInt64.lt_iff_toNat_lt] at hlt
    rw [if_pos ⟨UInt64.lt_iff_toNat_lt.mpr (by omega), UInt64.lt_iff_toNat_lt.mpr (by omega)⟩]
      at hmade
    omega

end Progress

namespace Batch

variable (batch : Batch) {number : ℕ} {offset later : Offset}

/-- Whether the edits in front of one have moved an offset to the greatest one. -/
def Saturated (number : ℕ) (offset : Offset) : Prop :=
  ∃ earlier ≤ number, (batch.before earlier).map.apply offset = Offset.greatest

lemma proper_before (number : ℕ) : (batch.before number).map.Proper :=
  Progress.proper_foldl OffsetMap.proper_identity _

variable {batch}

lemma Saturated.mono {more : ℕ} (h : batch.Saturated number offset) (hle : number ≤ more) :
    batch.Saturated more offset := by
  obtain ⟨earlier, hearlier, hgreatest⟩ := h
  exact ⟨earlier, hearlier.trans hle, hgreatest⟩

lemma covers_first_succ {edit : Edit} (h : batch.edits[number]? = some edit) (place : ℕ) :
    (batch.first (number + 1)).covers place =
      ((batch.first number).covers place || edit.clears (place + 1)) := by
  rw [covers, first_succ batch h, List.any_append, ← covers]
  simp

/-- **A batch brings two neighbours together** only if it deletes the character between them or
moves the first of them to the greatest offset. -/
lemma covers_of_meet (hnumber : number ≤ batch.edits.length)
    (neighbours : later.toNat = offset.toNat + 1)
    (meet : (batch.before number).map.apply offset = (batch.before number).map.apply later) :
    (batch.first number).covers offset.toNat = true ∨ batch.Saturated number offset := by
  induction number with
  | zero =>
    rw [before_zero, OffsetMap.apply_identity, OffsetMap.apply_identity] at meet
    rw [meet] at neighbours
    omega
  | succ number ih =>
    obtain ⟨edit, h⟩ := batch.exists_edit hnumber
    rw [covers_first_succ h, Bool.or_eq_true]
    by_cases before : (batch.before number).map.apply offset = (batch.before number).map.apply later
    · exact (ih (by omega) before).imp .inl fun hsaturated => hsaturated.mono (by omega)
    · have hle : (batch.before number).map.apply offset ≤ (batch.before number).map.apply later :=
        (batch.proper_before number).apply_mono (UInt64.le_iff_toNat_le.mpr (by omega))
      have apart := UInt64.lt_of_le_of_ne hle before
      rw [before_succ batch h] at meet
      refine (Progress.clears_of_meet (batch.proper_before number) neighbours apart meet).imp .inr
        fun hgreatest => ⟨number + 1, le_rfl, ?_⟩
      rw [before_succ batch h, hgreatest]

/-- The edits in front of one move an offset by no more than they put in. -/
lemma toNat_apply_before_le (hnumber : number ≤ batch.edits.length) (offset : Offset) :
    ((batch.before number).map.apply offset).toNat ≤
      offset.toNat + insertedLength (batch.first number).edits := by
  induction number with
  | zero =>
    rw [before_zero, OffsetMap.apply_identity]
    exact Nat.le_add_right _ _
  | succ number ih =>
    obtain ⟨edit, h⟩ := batch.exists_edit hnumber
    have hbound := ih (by omega)
    rw [before_succ batch h, first_succ batch h, insertedLength_append]
    cases edit with
    | insertion place text =>
      simp only [Progress.next, OffsetMap.apply_afterInsertion, Step.toNat_apply_shift,
        insertedLength_insertion]
      split_ifs <;> omega
    | deletion start stop =>
      rcases Nat.lt_or_ge start.toNat stop.toNat with hlt | hge
      · rw [Progress.toNat_apply_next_deletion _ (UInt64.le_iff_toNat_le.mpr hlt.le)]
        omega
      · rw [Progress.map_next_deletion_of_le _ (UInt64.le_iff_toNat_le.mpr hge)]
        omega

/-- An offset from which the inserted characters do not reach the greatest one never comes to it. -/
lemma not_saturated (hnumber : number ≤ batch.edits.length)
    (room : offset.toNat + insertedLength (batch.first number).edits < Offset.greatest.toNat) :
    ¬ batch.Saturated number offset := by
  rintro ⟨earlier, hearlier, hgreatest⟩
  have hle := toNat_apply_before_le (hearlier.trans hnumber) offset
  have hinserted : insertedLength (batch.first earlier).edits ≤
      insertedLength (batch.first number).edits := by
    have := (batch.first number).insertedLength_first_le earlier
    rwa [first, first, List.take_take, Nat.min_eq_left hearlier] at this
  rw [hgreatest] at hle
  omega

variable {D : Type} [Document D] [LawfulDocument D] {document left : D} {reached : Progress}

/-- **What lies behind the document is not deleted** by edits that are made, and stays behind it,
unless its offset comes to the greatest one.

**Proof sketch.** Induction on the number of edits. By then the character has not been deleted, so
that its offset and the next one are at different places. A deletion that covers it has something to
do then, and does it up to a place behind the document, where it would be refused. -/
lemma not_covers_of_run (hnumber : number ≤ batch.edits.length)
    (reaches : Progress.run {} document (batch.first number).edits = (left, .ok reached))
    (behind : length document ≤ offset.toNat) (hlater : later.toNat = offset.toNat + 1)
    (unsaturated : ¬ batch.Saturated number offset) :
    (batch.first number).covers offset.toNat = false ∧
      length left ≤ ((batch.before number).map.apply offset).toNat := by
  induction number generalizing left reached with
  | zero =>
    cases reaches
    exact ⟨rfl, behind⟩
  | succ number ih =>
    obtain ⟨edit, h⟩ := batch.exists_edit hnumber
    rw [first_succ batch h, Progress.run_append] at reaches
    rcases hrun : Progress.run {} document (batch.first number).edits
      with ⟨middle, cause | progress⟩
    · rw [hrun] at reaches
      cases reaches
    obtain rfl : progress = batch.before number := Progress.eq_foldl_of_run _ hrun
    rcases hperform : (batch.before number).perform middle edit with cause | changed
    · simp only [hrun, Progress.run_singleton, hperform] at reaches
      cases reaches
    simp only [hrun, Progress.run_singleton, hperform, Prod.mk.injEq] at reaches
    obtain ⟨rfl, -⟩ := reaches
    have hsaturated : ¬ batch.Saturated number offset := fun hsaturated =>
      unsaturated (hsaturated.mono (Nat.le_succ number))
    obtain ⟨hcovers, hlength⟩ := ih (by omega) hrun hsaturated
    rw [covers_first_succ h, hcovers, Bool.false_or, before_succ batch h]
    have apart :
        (batch.before number).map.apply offset ≠ (batch.before number).map.apply later := by
      intro meet
      have hcovered := (covers_of_meet (by omega) hlater meet).resolve_right hsaturated
      rw [hcovered] at hcovers
      cases hcovers
    exact ⟨Progress.clears_eq_false_of_perform (batch.proper_before number) hlater apart hperform
        hlength,
      Progress.length_le_apply_of_perform hperform hlength fun hgreatest =>
        unsaturated ⟨number + 1, le_rfl, by rw [before_succ batch h, hgreatest]⟩⟩

/-- **A deletion is skipped only when it was swallowed**, whatever the offsets of the batch and
whatever the document. Each character of its range has been deleted by an earlier edit, or its
offset has come to the greatest one, where moves stop. If the range ends behind the document, the
offset of its last character has come to the greatest one. And no offset does from which the
inserted characters do not reach so far.

**Proof sketch.** Both ends are at the same place, and so is everything between them, as the map
keeps the order of offsets. Neighbours come together in two ways only (`covers_of_meet`), and no
edit that was made has deleted what lies behind the document (`not_covers_of_run`). -/
theorem swallowed_of_skipped (batch : Batch) (document : D) {number : ℕ} {start stop : Offset}
    {left : D} {reached : Progress} (h : batch.edits[number]? = some (.deletion start stop))
    (nonempty : start < stop)
    (reaches : Progress.run {} document (batch.first number).edits = (left, .ok reached))
    (skipped : reached.change? (.deletion start stop) = none) :
    (∀ offset : Offset, start ≤ offset → offset < stop →
      (batch.first number).covers offset.toNat = true ∨ batch.Saturated number offset) ∧
    (length document < stop.toNat → batch.Saturated number (stop - 1)) ∧
    (∀ offset : Offset,
      offset.toNat + insertedLength (batch.first number).edits < Offset.greatest.toNat →
        ¬ batch.Saturated number offset) := by
  have hnumber : number ≤ batch.edits.length := (List.getElem?_eq_some_iff.mp h).1.le
  obtain rfl : reached = batch.before number := Progress.eq_foldl_of_run _ reaches
  have proper := batch.proper_before number
  have hmeet : (batch.before number).map.apply stop ≤ (batch.before number).map.apply start :=
    UInt64.not_lt.mp fun hlt => Progress.change?_deletion_eq_none_iff.mp skipped ⟨nonempty, hlt⟩
  have hfirst : ∀ offset : Offset, start ≤ offset → offset < stop →
      (batch.first number).covers offset.toNat = true ∨ batch.Saturated number offset := by
    intro offset hstart hstop
    have hlater : (offset + 1).toNat = offset.toNat + 1 := by
      have := UInt64.lt_iff_toNat_lt.mp hstop
      have := stop.toNat_lt_size
      rw [UInt64.toNat_add, UInt64.toNat_one]
      exact Nat.mod_eq_of_lt (by simp only [UInt64.size] at *; omega)
    apply covers_of_meet hnumber hlater
    apply UInt64.le_antisymm
    · exact proper.apply_mono (UInt64.le_iff_toNat_le.mpr (by omega))
    · have hbehind : offset + 1 ≤ stop := by
        rw [UInt64.lt_iff_toNat_lt] at hstop
        exact UInt64.le_iff_toNat_le.mpr (by omega)
      exact UInt64.le_trans (proper.apply_mono hbehind)
        (UInt64.le_trans hmeet (proper.apply_mono hstart))
  refine ⟨hfirst, fun behind => ?_, fun offset room => not_saturated hnumber room⟩
  have hpositive := UInt64.lt_iff_toNat_lt.mp nonempty
  have hlast : (stop - 1).toNat = stop.toNat - 1 :=
    UInt64.toNat_sub_of_le _ _ (UInt64.le_iff_toNat_le.mpr (by rw [UInt64.toNat_one]; omega))
  by_contra unsaturated
  rcases hfirst (stop - 1) (UInt64.le_iff_toNat_le.mpr (by omega))
    (UInt64.lt_iff_toNat_lt.mpr (by omega)) with hcovers | hsaturated
  · have hnext : stop.toNat = (stop - 1).toNat + 1 := by omega
    have hfalse := (not_covers_of_run hnumber reaches (by omega) hnext unsaturated).1
    rw [hfalse] at hcovers
    cases hcovers
  · exact unsaturated hsaturated

/-- Three deletions, with text put in between: what the third one should delete is gone by then,
partly by the first and partly by the second. -/
theorem swallowed_of_skipped_overlapping :
    let batch : Batch :=
      ⟨[.deletion 2 5, .insertion 6 "xy", .deletion 4 8, .deletion 3 7]⟩
    let document : FlatText := ⟨"0123456789"⟩
    batch.edits[3]? = some (.deletion 3 7) ∧ (3 : Offset) < 7 ∧
    (∃ left, Progress.run {} document (batch.first 3).edits = (left, .ok (batch.before 3))) ∧
    (batch.before 3).change? (.deletion 3 7) = none ∧
    ∀ offset : Offset, 3 ≤ offset → offset < 7 → (batch.first 3).covers offset.toNat = true := by
  intro batch document
  have fits : ∀ edit ∈ batch.edits, edit.Fits (insertedLength batch.edits) := by decide
  have hnumber : 3 ≤ batch.edits.length := by decide
  obtain ⟨left, reaches, -⟩ := batch.exists_run_first document fits hnumber (by decide)
  have h : batch.edits[3]? = some (.deletion 3 7) := rfl
  have skipped : (batch.before 3).change? (.deletion 3 7) = none := by decide
  obtain ⟨hswallowed, -, hroom⟩ :=
    swallowed_of_skipped batch document h (by decide) reaches skipped
  refine ⟨h, by decide, ⟨left, reaches⟩, skipped, fun offset hstart hstop => ?_⟩
  have hinserted : insertedLength (batch.first 3).edits = 2 := by decide
  have hlt : offset.toNat < 7 := UInt64.lt_iff_toNat_lt.mp hstop
  refine (hswallowed offset hstart hstop).resolve_right (hroom offset ?_)
  rw [hinserted, Offset.toNat_greatest, UInt64.size]
  omega

/-- An offset does come to the greatest one: behind an insertion at the start of a document, a
deletion of the last character that offsets reach is skipped in a document that has no such
character, and no edit has deleted it. -/
theorem not_forall_covers_of_skipped :
    ¬ ∀ (batch : Batch) (document : FlatText) (number : ℕ) (start stop : Offset) (left : FlatText)
      (reached : Progress), batch.edits[number]? = some (.deletion start stop) → start < stop →
      Progress.run {} document (batch.first number).edits = (left, .ok reached) →
      reached.change? (.deletion start stop) = none →
      ∀ offset : Offset, start ≤ offset → offset < stop →
        (batch.first number).covers offset.toNat = true := by
  intro hall
  let front : Batch := ⟨[.insertion 0 "a"]⟩
  let last : Offset := Offset.greatest - 1
  have fits : ∀ edit ∈ front.edits, edit.Fits (insertedLength front.edits) := by decide
  have hnumber : 1 ≤ front.edits.length := le_rfl
  obtain ⟨left, reaches, -⟩ :=
    front.exists_run_first (⟨""⟩ : FlatText) fits hnumber (by decide)
  have hcovers := hall ⟨[.insertion 0 "a", .deletion last Offset.greatest]⟩ ⟨""⟩ 1 last
    Offset.greatest left (front.before 1) rfl (by decide) reaches (by decide) last
    (UInt64.le_refl last) (by decide)
  cases hcovers

end Batch

end EditBatch
