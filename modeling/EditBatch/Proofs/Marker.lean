import EditBatch.Proofs.Caret
import EditBatch.Proofs.Modes
set_option autoImplicit false

/-!
# Documents with a marker at the caret

A marker goes into the output where the edits leave the caret. It is put in with the checked change
that edits are made with, so that it needs a caret inside the document. The only carets outside come
from edits that change nothing, as these are not compared with the document.

## Main results

* `EditBatch.Plan.exists_mark_eq_ok`, `EditBatch.Plan.mark_eq_error` — the marking of a document.
* `EditBatch.Plan.Made.run_marked_inside`, `EditBatch.Plan.Made.run_marked_outside` — a run with a
  marker.
* `EditBatch.Plan.execute_marked` — what a marker changes in a run.
* `EditBatch.Plan.not_forall_execute_marked` — a marker can make a run fail.
-/

namespace EditBatch

namespace Plan

open Document

/-! ## The marking of a document -/

section Mark

variable {D : Type} [Document D] (document : D) (marker : String) {offset : Offset}

/-- A caret inside the document is marked. -/
lemma exists_mark_eq_ok [LawfulDocument D] (inside : offset.toNat ≤ (chars document).length) :
    ∃ marked, mark document (some marker) (some offset) = .ok marked ∧
      chars marked = (chars document).take offset.toNat ++ marker.toList ++
        (chars document).drop offset.toNat := by
  rw [← LawfulDocument.length_eq] at inside
  exact exists_replace_eq_ok document offset.toNat 0 marker inside

/-- A caret outside the document is not marked. -/
lemma mark_eq_error [LawfulDocument D] (outside : (chars document).length < offset.toNat) :
    mark document (some marker) (some offset) =
      .error (.invalidOffset offset.toNat 0 (chars document).length) := by
  rw [← LawfulDocument.length_eq] at outside ⊢
  exact replace_eq_error document marker outside

end Mark

/-! ## Runs with a marker -/

namespace Made

variable {plan : Plan} {world : World} (made : plan.Made world) (marker : String)

/-- Without a caret there is nothing to mark. -/
lemma run_marked_of_no_caret (h : made.caret = none) :
    world.run { plan with mode := .apply (.output (some marker)) }.execute =
      (.ok (), (world.reported made.told).printed (content made.edited)) := by
  rw [made.run_apply, run_deliver_output, h]
  rfl

/-- A marker goes to the caret if the caret is inside the edited document. -/
lemma run_marked_inside {offset : Offset} (h : made.caret = some offset)
    (inside : offset.toNat ≤ (chars made.edited).length) :
    ∃ output, world.run { plan with mode := .apply (.output (some marker)) }.execute =
        (.ok (), (world.reported made.told).printed output) ∧
      output.toList = (chars made.edited).take offset.toNat ++ marker.toList ++
        (chars made.edited).drop offset.toNat := by
  obtain ⟨marked, hmark, hchars⟩ := exists_mark_eq_ok made.edited marker inside
  refine ⟨content marked, ?_, hchars⟩
  rw [made.run_apply, run_deliver_output, h, hmark]

/-- A run with a marker fails if the caret is outside the edited document. The caret has been
reported by then, and nothing is put out. -/
lemma run_marked_outside {offset : Offset} (h : made.caret = some offset)
    (outside : (chars made.edited).length < offset.toNat) :
    world.run { plan with mode := .apply (.output (some marker)) }.execute =
      (.error (.notMarked (.invalidOffset offset.toNat 0 (chars made.edited).length)),
        world.reported made.told) := by
  rw [made.run_apply, run_deliver_output, h, mark_eq_error made.edited marker outside]

/-- When the caret is outside the edited document, the last edit changes nothing when its turn comes
and starts behind the end of the document that was read. -/
lemma exists_last_of_outside {offset : Offset} (h : made.caret = some offset)
    (outside : (chars made.edited).length < offset.toNat) :
    ∃ front last, made.batch.edits = front ++ [last] ∧
      (front.foldl Progress.next {}).change? last = none ∧
      (made.text.length + insertedLength made.batch.edits ≤ Offset.greatest.toNat →
        made.text.length < last.start.toNat) := by
  have happlied := made.applied
  rw [h] at happlied
  rw [← LawfulDocument.length_eq] at outside
  have hlength : length (Document.ofText made.text : plan.backend.Store) = made.text.length := by
    rw [LawfulDocument.length_eq, Backend.chars_ofText, String.length_toList]
  rw [← hlength]
  exact Batch.exists_last_of_length_lt_caret happlied outside

end Made

/-- **What a marker changes in a run.** Let the run of a plan that puts out the edited document
without a marker succeed. With a marker, the same plan reports the same. If no caret is reported,
which is so for the script without edits and for no other, the same text is put out. If a caret is
reported that is inside this text, the text is put out with the marker at the caret. If the caret is
outside, the run with the marker fails and puts nothing out. This takes a last edit that changes
nothing when its turn comes, since its text or its range is empty or the edits in front of it have
left nothing of the range. As long as the length of the document and of all inserted texts is an
offset, this edit starts behind the end of the document as it was read.

**Proof sketch.** Both runs make the same edits, since a plan with another target prepares the same
batch (`exists_made`), and then report the same caret (`Made.run_apply`). The marker is put in with
a checked change (`exists_mark_eq_ok`, `mark_eq_error`). An edit that changes the document leaves
the caret inside of it, and so does an edit that starts at an offset up to the end of the original
document, as such offsets are taken to offsets up to the end of the edited one
(`Batch.exists_last_of_length_lt_caret`). -/
theorem execute_marked (plan : Plan) (world plain : World) (marker : String)
    (hplain : world.run { plan with mode := .apply (.output none) }.execute = (.ok (), plain)) :
    ∃ made : plan.Made world,
      plain = (world.reported made.told).printed (content made.edited) ∧
      (made.caret = none ↔ made.script.ops = []) ∧
      (made.caret = none →
        world.run { plan with mode := .apply (.output (some marker)) }.execute = (.ok (), plain)) ∧
      ∀ offset, made.caret = some offset →
        (offset.toNat ≤ (chars made.edited).length →
          ∃ output, world.run { plan with mode := .apply (.output (some marker)) }.execute =
              (.ok (), (world.reported made.told).printed output) ∧
            output.toList = (chars made.edited).take offset.toNat ++ marker.toList ++
              (chars made.edited).drop offset.toNat) ∧
        ((chars made.edited).length < offset.toNat →
          world.run { plan with mode := .apply (.output (some marker)) }.execute =
            (.error (.notMarked (.invalidOffset offset.toNat 0 (chars made.edited).length)),
              world.reported made.told) ∧
          ∃ front last, made.batch.edits = front ++ [last] ∧
            (front.foldl Progress.next {}).change? last = none ∧
            (made.text.length + insertedLength made.batch.edits ≤ Offset.greatest.toNat →
              made.text.length < last.start.toNat)) := by
  obtain ⟨made⟩ := exists_made hplain
  obtain rfl : (world.reported made.told).printed (content made.edited) = plain :=
    (Prod.mk.inj (made.run_output.symm.trans hplain)).2
  refine ⟨made, rfl, made.caret_eq_none_iff, made.run_marked_of_no_caret marker, ?_⟩
  intro offset hcaret
  refine ⟨made.run_marked_inside marker hcaret, fun outside => ⟨?_, ?_⟩⟩
  · exact made.run_marked_outside marker hcaret outside
  · exact made.exists_last_of_outside hcaret outside

/-- A bracket is put into a document, and a bar goes behind it. -/
theorem execute_marked_inside :
    let plan : Plan := ⟨⟨"doc"⟩, ⟨"edits.json"⟩, .apply (.output none), .flat, false⟩
    let world : World := { files.entries :=
      [(["doc".toList], .file "abc".toUTF8),
        (["edits.json".toList], .file "[[[\"insert\",1,\">\"]]]".toUTF8)] }
    ∃ (made : plan.Made world) (output : String),
      made.caret = some 2 ∧ content made.edited = "a>bc" ∧
      world.run { plan with mode := .apply (.output (some "|")) }.execute =
        (.ok (), (world.reported made.told).printed output) ∧
      output.toList = "a>|bc".toList := by
  intro plan world
  have hcompiled : Script.compile ⟨[.insert 1 ">"]⟩ (⟨"abc"⟩ : FlatText) =
      .ok ⟨[.insertion 1 ">"]⟩ := by decide +kernel
  have happlied : (⟨[.insertion 1 ">"]⟩ : Batch).apply (⟨"abc"⟩ : FlatText) =
      (⟨"a>bc"⟩, .ok (some 2)) := by decide +kernel
  let known : plan.Made world :=
    { text := "abc", script := ⟨[.insert 1 ">"]⟩, batch := ⟨[.insertion 1 ">"]⟩
      edited := (⟨"a>bc"⟩ : FlatText), caret := some 2
      read := by decide +kernel, stored := by decide +kernel
      compiled := hcompiled, applied := happlied }
  obtain ⟨made, -, -, -, hmarked⟩ := execute_marked plan world _ "|" known.run_output
  obtain rfl : made = known := Subsingleton.elim made known
  have hchars : chars known.edited = "a>bc".toList := rfl
  have inside : (2 : Offset).toNat ≤ (chars known.edited).length := by
    rw [hchars]
    decide
  obtain ⟨output, hrun, houtput⟩ := (hmarked 2 rfl).1 inside
  refine ⟨known, output, rfl, rfl, hrun, ?_⟩
  rw [houtput, hchars]
  decide +kernel

/-- **A marker can make a run fail.** The document has three characters and the caret is moved to
offset 100. Nobody objects until a marker is to be put there. -/
theorem not_forall_execute_marked :
    ¬ ∀ (plan : Plan) (world plain : World) (marker : String),
      world.run { plan with mode := .apply (.output none) }.execute = (.ok (), plain) →
      ∃ marked, world.run { plan with mode := .apply (.output (some marker)) }.execute =
        (.ok (), marked) := by
  intro hall
  let plan : Plan := ⟨⟨"doc"⟩, ⟨"edits.json"⟩, .apply (.output none), .flat, false⟩
  let world : World := { files.entries :=
    [(["doc".toList], .file "abc".toUTF8),
      (["edits.json".toList], .file "[[[\"move_cursor_to\",100]]]".toUTF8)] }
  have hplain : (world.run plan.execute).1 = .ok () := by decide +kernel
  have hfailed : (world.run { plan with mode := .apply (.output (some "|")) }.execute).1 =
      .error (.notMarked (.invalidOffset 100 0 3)) := by decide +kernel
  obtain ⟨marked, hmarked⟩ := hall plan world _ "|" (Prod.ext hplain rfl)
  rw [hmarked] at hfailed
  cases hfailed

end Plan

end EditBatch
