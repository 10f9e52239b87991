import EditBatch.Proofs.Gaps
import Mathlib.Algebra.BigOperators.Group.List.Basic
set_option autoImplicit false

/-!
# Batches that only take out

A batch that puts no text in leaves of a document the characters that none of its deletions covers,
in order. The ranges may overlap, and their order in the batch does not matter.

## Main definitions

* `EditBatch.spared` — a list without some of its entries, chosen by number.
* `EditBatch.Batch.covers` — whether a deletion of a batch covers a character.

## Main results

* `EditBatch.spared_flatten` — a list of pieces each of which stays or goes as a whole.
* `EditBatch.Batch.exists_apply_deletions` — what a batch of deletions leaves.
-/

namespace EditBatch

open Document

/-! ## Lists without some entries -/

section Spared

variable {α β : Type} {gone other : ℕ → Bool} {first start : ℕ}

/-- The entries of a list that are not gone. The entries are numbered from `first` on. -/
def spared (gone : ℕ → Bool) (first : ℕ) : List α → List α
  | [] => []
  | x :: xs => if gone first then spared gone (first + 1) xs else x :: spared gone (first + 1) xs

lemma spared_append (xs ys : List α) :
    spared gone first (xs ++ ys) = spared gone first xs ++ spared gone (first + xs.length) ys := by
  induction xs generalizing first with
  | nil => rfl
  | cons x xs ih =>
    rw [List.cons_append, spared, spared, ih, List.length_cons,
      show first + 1 + xs.length = first + (xs.length + 1) by omega]
    split_ifs
    · rfl
    · rfl

lemma spared_map (f : α → β) (xs : List α) :
    spared gone first (xs.map f) = (spared gone first xs).map f := by
  induction xs generalizing first with
  | nil => rfl
  | cons x xs ih =>
    rw [List.map_cons, spared, spared, ih]
    split_ifs
    · rfl
    · rfl

/-- Only the numbers of the entries matter. -/
lemma spared_congr {xs : List α}
    (h : ∀ index < xs.length, gone (first + index) = other (start + index)) :
    spared gone first xs = spared other start xs := by
  induction xs generalizing first start with
  | nil => rfl
  | cons x xs ih =>
    have hhead := h 0 (by simp)
    have htail : spared gone (first + 1) xs = spared other (start + 1) xs := by
      apply ih
      intro index hindex
      have := h (index + 1) (by simpa using hindex)
      rwa [show first + (index + 1) = first + 1 + index by omega,
        show start + (index + 1) = start + 1 + index by omega] at this
    rw [Nat.add_zero, Nat.add_zero] at hhead
    rw [spared, spared, hhead, htail]

/-- Entries of one kind stay or go together. -/
lemma spared_eq_ite {xs : List α} {out : Bool}
    (h : ∀ index < xs.length, gone (first + index) = out) :
    spared gone first xs = if out then [] else xs := by
  induction xs generalizing first with
  | nil => cases out <;> rfl
  | cons x xs ih =>
    have hhead := h 0 (by simp)
    have htail : spared gone (first + 1) xs = if out then [] else xs := by
      apply ih
      intro index hindex
      have := h (index + 1) (by simpa using hindex)
      rwa [show first + (index + 1) = first + 1 + index by omega] at this
    rw [Nat.add_zero] at hhead
    rw [spared, hhead, htail]
    cases out <;> rfl

/-- The numbers that are not gone, looked up one after the other. -/
lemma spared_eq_filterMap (gone : ℕ → Bool) (xs : List α) :
    spared gone 0 xs =
      ((List.range xs.length).filter fun index => !gone index).filterMap
        fun index => xs[index]? := by
  induction xs generalizing gone with
  | nil => rfl
  | cons x xs ih =>
    have htail : spared gone 1 xs = spared (fun index => gone (index + 1)) 0 xs := by
      apply spared_congr
      intro index _
      rw [Nat.zero_add, Nat.add_comm]
    rw [spared, htail, ih, List.length_cons, List.range_succ_eq_map, List.filter_cons,
      List.filter_map]
    cases gone 0 <;> simp [List.filterMap_map, Function.comp_def]

lemma mem_spared {xs : List α} {x : α} :
    x ∈ spared gone 0 xs ↔ ∃ index, gone index = false ∧ xs[index]? = some x := by
  rw [spared_eq_filterMap, List.mem_filterMap]
  constructor
  · rintro ⟨index, hmem, h⟩
    exact ⟨index, by simpa using (List.mem_filter.mp hmem).2, h⟩
  · rintro ⟨index, hgone, h⟩
    have hlt : index < xs.length := (List.getElem?_eq_some_iff.mp h).1
    exact ⟨index, List.mem_filter.mpr ⟨List.mem_range.mpr hlt, by simp [hgone]⟩, h⟩

/-- **A list of pieces each of which stays or goes as a whole** is left with the pieces that
stay. -/
lemma spared_flatten {pieces : List (List α)}
    (h : ∀ number piece, pieces[number]? = some piece → ∀ index < piece.length,
      gone (first + (pieces.take number).flatten.length + index) = other (start + number)) :
    spared gone first pieces.flatten = (spared other start pieces).flatten := by
  induction pieces generalizing first start with
  | nil => rfl
  | cons piece pieces ih =>
    have hhead : spared gone first piece = if other start then [] else piece := by
      apply spared_eq_ite
      intro index hindex
      exact h 0 piece rfl index hindex
    have htail : spared gone (first + piece.length) pieces.flatten =
        (spared other (start + 1) pieces).flatten := by
      apply ih
      intro number next hnext index hindex
      have := h (number + 1) next hnext index hindex
      rwa [List.take_succ_cons, List.flatten_cons, List.length_append, ← Nat.add_assoc first,
        show start + (number + 1) = start + 1 + number by omega] at this
    rw [List.flatten_cons, spared_append, hhead, htail, spared]
    cases other start <;> rfl

end Spared

/-! ## What a batch of deletions leaves -/

namespace Batch

variable {batch : Batch}

/-- Whether a deletion of a batch covers the character behind an offset. -/
def covers (batch : Batch) (offset : ℕ) : Bool := batch.edits.any (Edit.clears (offset + 1))

lemma insertedLength_eq_zero (adds : ∀ edit ∈ batch.edits, edit.text = "") :
    insertedLength batch.edits = 0 := by
  apply List.sum_eq_zero
  intro count hmem
  obtain ⟨edit, hedit, rfl⟩ := List.mem_map.mp hmem
  rw [adds edit hedit]
  rfl

/-- If no text is put in, a gap holds its character or nothing. -/
lemma held_eq_ite (adds : ∀ edit ∈ batch.edits, edit.text = "") (gap : ℕ) :
    batch.held batch.edits.length gap =
      if batch.cleared 0 batch.edits.length gap then [] else Layout.unedited gap := by
  have hshare : ∀ number, batch.share gap (number + 1) = [] := by
    intro number
    rw [share]
    rcases h : batch.edits[number]? with _ | edit
    · rfl
    · simp [adds edit (List.mem_of_getElem? h), Origin.ofText]
  have hzero : batch.share gap 0 = Layout.unedited gap := rfl
  rw [held, List.range_succ_eq_map, List.flatMap_cons, List.flatMap_map, hzero]
  simp [hshare]

variable {D : Type} [Document D] [LawfulDocument D]

/-- **A batch that puts nothing in** leaves the characters that its deletions do not cover. -/
theorem exists_apply_deletions (batch : Batch) (document : D)
    (adds : ∀ edit ∈ batch.edits, edit.text = "") (ordered : ∀ edit ∈ batch.edits, edit.Ordered)
    (within : ∀ edit ∈ batch.edits, edit.Within (length document))
    (room : length document ≤ Offset.greatest.toNat) :
    ∃ final caret, batch.apply document = (final, .ok caret) ∧
      chars final = spared batch.covers 0 (chars document) := by
  obtain ⟨final, happly, htext, hlayout⟩ := batch.exists_apply document ordered within (by
    rwa [insertedLength_eq_zero adds])
  refine ⟨final, _, happly, ?_⟩
  have hgap : ∀ offset, (batch.layout batch.edits.length (offset + 1)).filterMap
      (batch.source? (chars document)) =
        (if !batch.covers offset then (chars document)[offset]? else none).toList := by
    intro offset
    rw [layout_eq_held batch le_rfl, held_eq_ite adds, cleared, List.take_length, List.drop_zero,
      ← covers]
    cases batch.covers offset
    · rw [List.filterMap_eq_flatMap_toList]
      exact List.flatMap_singleton _ _
    · rfl
  have hzero : batch.layout batch.edits.length 0 = [] := by
    rw [layout_eq_held batch le_rfl, held_eq_ite adds]
    exact ite_self _
  have hchars := congrArg (List.filterMap id) htext
  rw [List.filterMap_map, List.filterMap_map] at hchars
  calc chars final = (chars final).filterMap (id ∘ some) := by simp
    _ = ((batch.layout batch.edits.length).front (length document)).filterMap
        (batch.source? (chars document)) := by rw [hchars, hlayout]; rfl
    _ = (List.range (length document)).flatMap fun offset =>
        (if !batch.covers offset then (chars document)[offset]? else none).toList := by
      rw [Layout.front_eq_flatMap, List.filterMap_flatMap, List.range_succ_eq_map,
        List.flatMap_cons, List.flatMap_map, hzero]
      simp only [Nat.succ_eq_add_one, hgap]
      rfl
    _ = spared batch.covers 0 (chars document) := by
      rw [spared_eq_filterMap, List.filterMap_filter, List.filterMap_eq_flatMap_toList,
        LawfulDocument.length_eq]

end Batch

end EditBatch
