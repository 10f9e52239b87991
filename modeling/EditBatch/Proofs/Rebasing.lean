import EditBatch.Proofs.Monotone
import EditBatch.Proofs.Preview
import EditBatch.Proofs.Provenance
set_option autoImplicit false

/-!
# Batches one after the other

A batch that is recorded for a document still has a meaning when another batch has changed the
document in the meantime: its offsets are taken through the offset map of the other batch. To apply
both as one batch is to apply the first and then the second in this form.

## Main definitions

* `EditBatch.OffsetMap.andThen` — the changes of two maps, one after the other.
* `EditBatch.Edit.rebase`, `EditBatch.Batch.rebase` — edits with their offsets taken through a map.
* `EditBatch.Progress.after` — the progress of two batches.

## Main results

* `EditBatch.Progress.change?_after`, `EditBatch.Progress.next_after` — one edit behind an earlier
  batch, and the same edit rebased.
* `EditBatch.Progress.perform_after`, `EditBatch.Progress.run_after` — what these do to a document.
* `EditBatch.Batch.apply_append_rebase` — two batches as one.

## Design

The map of both batches has the steps of the first and then those of the second. Both sides make
the same changes and record the same steps, so that no arithmetic is needed but that maps keep the
order of offsets: a range that is not empty for the first side, but has been emptied by the first
batch, is empty for the second side.
-/

namespace EditBatch

/-! ## Maps one after the other -/

namespace OffsetMap

/-- The map of the changes of one map and then those of another. -/
def andThen (map later : OffsetMap) : OffsetMap := ⟨map.steps ++ later.steps⟩

variable (map later : OffsetMap)

@[simp] lemma apply_andThen (offset : Offset) :
    (map.andThen later).apply offset = later.apply (map.apply offset) := by
  simp only [andThen, apply, List.foldl_append]

lemma andThen_identity : map.andThen identity = map := by
  simp only [andThen, identity, List.append_nil]

lemma afterInsertion_andThen (place : Offset) (count : ℕ) :
    (map.andThen later).afterInsertion place count =
      map.andThen (later.afterInsertion place count) := by
  simp only [afterInsertion]
  split_ifs
  · simp only [andThen, List.append_assoc]
  · rfl

lemma afterRemoval_andThen (start stop : Offset) :
    (map.andThen later).afterRemoval start stop = map.andThen (later.afterRemoval start stop) := by
  simp only [afterRemoval]
  split_ifs
  · simp only [andThen, List.append_assoc]
  · rfl

/-- The removal of an empty range is not recorded. -/
lemma afterRemoval_of_not_lt {start stop : Offset} (h : ¬ start < stop) :
    map.afterRemoval start stop = map :=
  if_neg h

end OffsetMap

/-! ## Edits taken through a map -/

/-- The edit with its offsets taken through a map. -/
def Edit.rebase (map : OffsetMap) : Edit → Edit
  | insertion offset text => insertion (map.apply offset) text
  | deletion start stop => deletion (map.apply start) (map.apply stop)

/-- An edit that starts before it ends does so in every later document. -/
lemma Edit.Ordered.rebase {map : OffsetMap} (proper : map.Proper) {edit : Edit}
    (ordered : edit.Ordered) : (edit.rebase map).Ordered := by
  cases edit with
  | insertion offset text => exact UInt64.le_refl _
  | deletion start stop => exact proper.apply_mono ordered

namespace Batch

/-- The edits of one batch and then those of another. -/
instance : Append Batch := ⟨fun first second => ⟨first.edits ++ second.edits⟩⟩

lemma edits_append (first second : Batch) :
    (first ++ second).edits = first.edits ++ second.edits := rfl

/-- The batch with all offsets taken through a map. -/
def rebase (map : OffsetMap) (batch : Batch) : Batch := ⟨batch.edits.map (Edit.rebase map)⟩

end Batch

/-! ## One edit behind an earlier batch -/

namespace Progress

/-- The progress of a batch and then another, that of the second counted in the document that the
first leaves. The caret stays where the first batch put it until the second places it. -/
def after (earlier later : Progress) : Progress :=
  ⟨earlier.map.andThen later.map, later.caret <|> earlier.caret⟩

variable {earlier : Progress} (later : Progress)

lemma after_start : earlier.after {} = earlier := by
  simp only [after, OffsetMap.andThen_identity]
  rfl

/-- A range has something left behind both batches and was not empty at first, if and only if it
has something left and was not empty behind the first batch. -/
lemma lt_and_apply_lt_iff (proper : earlier.map.Proper) (start stop : Offset) :
    (start < stop ∧
      later.map.apply (earlier.map.apply start) < later.map.apply (earlier.map.apply stop)) ↔
    (earlier.map.apply start < earlier.map.apply stop ∧
      later.map.apply (earlier.map.apply start) < later.map.apply (earlier.map.apply stop)) := by
  constructor
  · rintro ⟨hrange, hleft⟩
    have hne : earlier.map.apply start ≠ earlier.map.apply stop := by
      intro heq
      rw [heq] at hleft
      exact UInt64.lt_irrefl _ hleft
    exact ⟨UInt64.lt_of_le_of_ne (proper.apply_mono (UInt64.le_of_lt hrange)) hne, hleft⟩
  · rintro ⟨hrange, hleft⟩
    exact ⟨proper.lt_of_apply_lt_apply hrange, hleft⟩

/-- **An edit behind an earlier batch asks for the change** that it asks for when it is rebased. -/
lemma change?_after (proper : earlier.map.Proper) (edit : Edit) :
    (earlier.after later).change? edit = later.change? (edit.rebase earlier.map) := by
  cases edit with
  | insertion offset text => simp only [after, change?, Edit.rebase, OffsetMap.apply_andThen]
  | deletion start stop =>
    simp only [after, change?, Edit.rebase, OffsetMap.apply_andThen,
      lt_and_apply_lt_iff later proper]

/-- The deletion of a range that has nothing left only places the caret. -/
lemma next_deletion (progress : Progress) (start stop : Offset) :
    progress.next (.deletion start stop) =
      ⟨if start < stop ∧ progress.map.apply start < progress.map.apply stop then
          progress.map.afterRemoval (progress.map.apply start) (progress.map.apply stop)
        else progress.map, some (progress.map.apply start)⟩ := by
  simp only [next]
  by_cases hleft : progress.map.apply start < progress.map.apply stop
  · simp only [hleft, and_true]
  · simp only [hleft, and_false, OffsetMap.afterRemoval_of_not_lt _ hleft, ite_self]

/-- **An edit behind an earlier batch makes the progress** that it makes when it is rebased. -/
lemma next_after (proper : earlier.map.Proper) (edit : Edit) :
    (earlier.after later).next edit = earlier.after (later.next (edit.rebase earlier.map)) := by
  cases edit with
  | insertion offset text =>
    simp only [after, next, Edit.rebase, OffsetMap.apply_andThen, OffsetMap.afterInsertion_andThen]
    rfl
  | deletion start stop =>
    simp only [after, Edit.rebase, next_deletion, OffsetMap.apply_andThen,
      lt_and_apply_lt_iff later proper, OffsetMap.afterRemoval_andThen]
    split_ifs <;> rfl

/-! ## Two batches -/

section Document

variable {D : Type} [Document D]

/-- An edit behind an earlier batch does to the document what it does when it is rebased. -/
lemma perform_after (proper : earlier.map.Proper) (document : D) (edit : Edit) :
    (earlier.after later).perform document edit =
      later.perform document (edit.rebase earlier.map) := by
  rw [perform, change?_after later proper, perform]

/-- **Edits behind an earlier batch** do to the document what they do when they are rebased, and are
refused when they are, for the same cause. -/
lemma run_after (proper : earlier.map.Proper) (document : D) (edits : List Edit) :
    (earlier.after later).run document edits =
      ((later.run document (edits.map (Edit.rebase earlier.map))).1,
        (later.run document (edits.map (Edit.rebase earlier.map))).2.map earlier.after) := by
  induction edits generalizing later document with
  | nil => rfl
  | cons edit rest ih =>
    simp only [List.map_cons, run, perform_after later proper, next_after later proper]
    cases later.perform document (edit.rebase earlier.map) with
    | error cause => rfl
    | ok changed => exact ih (later.next (edit.rebase earlier.map)) changed

end Document

end Progress

namespace Batch

variable (first second : Batch) {D : Type} [Document D] {document changed : D}

/-- **Two batches as one.** Let a batch be made in a document. A second batch, recorded for the
document as it was, can be rebased through the map of the first: no deletion comes to start behind
its end. To make both as one batch is then to make the first and the rebased second one after the
other. The final document is the same, and so is the caret, which stays where the first batch put it
if the second has no edit. If an edit is refused, the cause is the same, and the document is left
alike.

**Proof sketch.** Behind the first batch the run of both goes on from its progress (`run_append`).
By induction on the edits of the second it does what the run of the rebased edits does from the
start (`run_after`). One edit asks for the same change on both sides (`change?_after`) and records
the same step (`next_after`), because the map of the first keeps the order of offsets
(`proper_foldl`). -/
theorem apply_append_rebase {caret : Option Offset}
    (made : first.apply document = (changed, .ok caret)) :
    ∃ reached, Progress.run {} document first.edits = (changed, .ok reached) ∧
      ((∀ edit ∈ second.edits, edit.Ordered) →
        ∀ edit ∈ (second.rebase reached.map).edits, edit.Ordered) ∧
      (first ++ second).apply document =
        (((second.rebase reached.map).apply changed).1,
          ((second.rebase reached.map).apply changed).2.map fun placed =>
            if second.edits = [] then caret else placed) := by
  rw [apply_eq, Prod.mk.injEq] at made
  obtain ⟨hchanged, hcaret⟩ := made
  rcases hrun : Progress.run {} document first.edits with ⟨left, cause | reached⟩
  · rw [hrun] at hcaret
    cases hcaret
  rw [hrun] at hchanged hcaret
  obtain rfl : left = changed := hchanged
  obtain rfl : reached.caret = caret := Except.ok.inj hcaret
  have proper : reached.map.Proper := by
    rw [Progress.eq_foldl_of_run _ hrun]
    exact Progress.proper_foldl OffsetMap.proper_identity first.edits
  refine ⟨reached, rfl, ?_, ?_⟩
  · intro hordered edit hmem
    obtain ⟨recorded, hrecorded, rfl⟩ := List.mem_map.mp hmem
    exact (hordered recorded hrecorded).rebase proper
  · have hsecond := Progress.run_after {} proper left second.edits
    rw [Progress.after_start] at hsecond
    rw [apply_eq, edits_append, Progress.run_append, hrun]
    simp only [hsecond, apply_eq, rebase]
    rcases hlater : Progress.run {} left (second.edits.map (Edit.rebase reached.map)) with
      ⟨final, cause | placed⟩
    · rfl
    · simp only [Except.map, Progress.after]
      split_ifs with hempty
      · rw [hempty] at hlater
        cases hlater
        rfl
      · have hplaced : placed.caret ≠ none := by
          rw [Progress.eq_foldl_of_run _ hlater, ne_eq, Progress.caret_foldl_eq_none_iff,
            List.map_eq_nil_iff]
          exact fun h => hempty h.2
        obtain ⟨offset, hoffset⟩ := Option.ne_none_iff_exists'.mp hplaced
        rw [hoffset]
        rfl

/-- The first batch empties the range of a deletion of the second, whose last edit then overruns. -/
theorem apply_append_rebase_overlapping :
    let first : Batch := ⟨[.insertion 0 ">", .deletion 2 8]⟩
    let second : Batch := ⟨[.deletion 3 5, .insertion 10 "!", .deletion 9 20]⟩
    let document : FlatText := ⟨"hello world"⟩
    first.apply document = (⟨">herld"⟩, .ok (some 3)) ∧
    (∀ edit ∈ second.edits, edit.Ordered) ∧
    ∃ map : OffsetMap, second.rebase map =
        ⟨[.deletion 3 3, .insertion 5 "!", .deletion 4 15]⟩ ∧
      (∀ edit ∈ (second.rebase map).edits, edit.Ordered) ∧
      (first ++ second).apply document = (⟨">herl!d"⟩, .error (.invalidOffset 4 12 7)) := by
  intro first second document
  have made : first.apply document = (⟨">herld"⟩, .ok (some 3)) := by decide +kernel
  have ordered : ∀ edit ∈ second.edits, edit.Ordered := by decide
  obtain ⟨reached, hrun, hordered, happly⟩ := apply_append_rebase first second made
  have hreached := Progress.eq_foldl_of_run _ hrun
  refine ⟨made, ordered, reached.map, ?_, hordered ordered, ?_⟩
  · rw [hreached]
    decide
  · rw [happly, hreached]
    decide +kernel

end Batch

end EditBatch
