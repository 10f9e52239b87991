import EditBatch.Proofs.Compilation
import EditBatch.Proofs.Execution
import EditBatch.Proofs.FileSystem
import EditBatch.Proofs.Preview
set_option autoImplicit false

/-!
# All modes of a run agree

Whether the edited document goes to the output or to a file, and whether it is made at all, a plan
works on the same document and the same batch. So all its modes tell of the same caret, and all that
write a document write the same one.

## Main definitions

* `EditBatch.Plan.Made` — what a plan works on when all its edits can be made.

## Main results

* `EditBatch.Plan.exists_made` — a run that applies its batch without failing has made all edits.
* `EditBatch.Plan.Made.run_apply`, `EditBatch.Plan.Made.run_preview` — the modes of a plan.
* `EditBatch.Plan.Made.caret_eq_none_iff` — only the empty script leaves no caret.
* `EditBatch.Plan.execute_modes` — what the modes have in common.
-/

namespace EditBatch

namespace Plan

variable {plan : Plan} {world : World}

/-! ## What is reported of the caret -/

/-- The line of a preview tells whether there is a caret. -/
lemma previewLine_eq_unknown_iff (caret : Option Offset) :
    previewLine caret = "unknown\n" ↔ caret = none := by
  cases caret with
  | none => simp [previewLine]
  | some offset =>
    refine iff_of_false (fun h => ?_) nofun
    have hdigits : offset.toNat.repr = "unknown" := String.append_left_inj "\n" |>.mp h
    have hmem : 'u' ∈ Nat.toDigits 10 offset.toNat := by
      rw [← Nat.toList_repr, hdigits]
      decide
    exact absurd (Nat.isDigit_of_mem_toDigits (by decide) (by decide) hmem) (by decide)

/-- The report of a caret tells whether there is one. -/
lemma caretReport_eq_empty_iff {D : Type} [Document D] (document : D) (caret : Option Offset) :
    caretReport document caret = "" ↔ caret = none := by
  cases caret with
  | none => simp [caretReport]
  | some offset => simp [caretReport, caretLine]

/-! ## What the modes work on -/

/-- What a plan works on in a world in which all its edits can be made. The mode of the plan does
not matter. -/
structure Made (plan : Plan) (world : World) where
  /-- The text of the document. -/
  text : String
  script : Script
  batch : Batch
  /-- The edited document. -/
  edited : plan.backend.Store
  /-- Where the edits leave the caret. -/
  caret : Option Offset
  read : world.files.readText plan.file = .ok text
  stored : Script.stored plan.script world.files = .ok script
  compiled : script.compile (Document.ofText text : plan.backend.Store) = .ok batch
  applied : batch.apply (Document.ofText text : plan.backend.Store) = (edited, .ok caret)

/-- A plan is prepared when its document and its script are read and the script fits. -/
lemma prepared_eq_ok_iff {D : Type} [Document D] {files : FileSystem} {document : D}
    {batch : Batch} :
    plan.prepared D files = .ok (document, batch) ↔
      ∃ text script, files.readText plan.file = .ok text ∧
        Script.stored plan.script files = .ok script ∧
        script.compile (Document.ofText text : D) = .ok batch ∧
        document = Document.ofText text := by
  simp only [prepared, bind_eq_ok_iff, mapError_eq_ok_iff]
  constructor
  · rintro ⟨text, hread, script, hstored, other, hcompile, hpair⟩
    cases hpair
    exact ⟨text, script, hread, hstored, hcompile, rfl⟩
  · rintro ⟨text, script, hread, hstored, hcompile, rfl⟩
    exact ⟨text, hread, script, hstored, batch, hcompile, rfl⟩

/-- **A run that applies its batch without failing** has made all edits. -/
lemma exists_made {target : Target} {final : World}
    (h : world.run { plan with mode := .apply target }.execute = (.ok (), final)) :
    Nonempty (plan.Made world) := by
  -- what is read and edited does not depend on the mode
  let applying : Plan := { plan with mode := .apply target }
  change world.run applying.execute = (.ok (), final) at h
  rcases hprepared : applying.prepared plan.backend.Store world.files with
    cause | ⟨document, batch⟩
  · rw [run_execute_of_unprepared hprepared] at h
    cases h
  · rcases happly : batch.apply document with ⟨edited, cause | caret⟩
    · rw [run_execute_of_not_applied hprepared rfl happly] at h
      cases h
    · obtain ⟨text, script, hread, hstored, hcompile, rfl⟩ := prepared_eq_ok_iff.mp hprepared
      exact ⟨⟨text, script, batch, edited, caret, hread, hstored, hcompile, happly⟩⟩

namespace Made

variable (made : plan.Made world)

/-- What a plan works on is determined by the world. -/
instance : Subsingleton (plan.Made world) where
  allEq := by
    rintro ⟨text, script, batch, edited, caret, hread, hstored, hcompiled, happlied⟩
      ⟨text', script', batch', edited', caret', hread', hstored', hcompiled', happlied'⟩
    obtain rfl := Except.ok.inj (hread.symm.trans hread')
    obtain rfl := Except.ok.inj (hstored.symm.trans hstored')
    obtain rfl := Except.ok.inj (hcompiled.symm.trans hcompiled')
    obtain ⟨rfl, hcaret⟩ := Prod.mk.inj (happlied.symm.trans happlied')
    obtain rfl := Except.ok.inj hcaret
    rfl

lemma prepared : plan.prepared plan.backend.Store world.files =
    .ok ((Document.ofText made.text : plan.backend.Store), made.batch) :=
  prepared_eq_ok_iff.mpr ⟨_, _, made.read, made.stored, made.compiled, rfl⟩

/-- What a run reports that applies the batch. -/
def told : String := plan.listing made.batch ++ caretReport made.edited made.caret

/-- Only the empty script leaves no caret. -/
lemma caret_eq_none_iff : made.caret = none ↔ made.script.ops = [] := by
  rw [← made.batch.preview_eq_of_apply made.applied, Batch.preview_eq_none_iff,
    Script.edits_eq_nil_iff made.compiled]

/-- In a mode that applies the batch, a run reports the caret and delivers the edited document. -/
lemma run_apply (target : Target) :
    world.run { plan with mode := .apply target }.execute =
      (world.reported made.told).run
        ({ plan with mode := .apply target }.deliver target made.edited made.caret) :=
  run_execute_of_applied made.prepared rfl made.applied

/-- The mode that applies nothing tells of the same caret. -/
lemma run_preview :
    world.run { plan with mode := .preview }.execute =
      (.ok (), (world.reported (plan.listing made.batch)).printed (previewLine made.caret)) := by
  rw [← made.batch.preview_eq_of_apply made.applied]
  exact run_execute_preview made.prepared rfl

/-- The report of a run that applies the batch tells whether there is a caret. -/
lemma told_eq_listing_iff : made.told = plan.listing made.batch ↔ made.caret = none := by
  rw [told, String.append_eq_left_iff, caretReport_eq_empty_iff]

/-- The output takes the edited document as it is if there is no marker. -/
lemma run_output :
    world.run { plan with mode := .apply (.output none) }.execute =
      (.ok (), (world.reported made.told).printed (Document.content made.edited)) := by
  rw [made.run_apply, run_deliver_output]
  rfl

/-- A file takes the edited document as it is. -/
lemma run_file {target : Target} {path : Path} {files : FileSystem}
    (h : plan.destination target = some path)
    (hwrite : world.files.write path (Document.content made.edited).toUTF8 = .ok files) :
    world.run { plan with mode := .apply target }.execute =
      (.ok (), (world.reported made.told).withFiles files) := by
  have hdestination : { plan with mode := .apply target }.destination target = some path := h
  rw [made.run_apply, run_deliver_file hdestination, World.files_reported, hwrite]

end Made

/-- **All modes of a run agree.** Let all edits of a plan be made. The output without a marker, a
file that is named for it, and the document itself if it is to be replaced all get the same text,
which is that of the edited document. The only file that changes is the one that the text goes to,
from where it can be read back. A preview of the same plan tells of the caret that the other modes
report: of the same offset, or that it is unknown. It is unknown if and only if the other modes
report none, which is so for the script without edits and for no other.

**Proof sketch.** The modes differ only in what they do with the edited document (`Made.run_output`,
`Made.run_file`), and the preview of the batch is the caret that it leaves (`Made.run_preview`). The
caret is there if and only if the batch has an edit, and every operation of a script records one. -/
theorem execute_modes (plan : Plan) (world : World) (made : plan.Made world) :
    world.run { plan with mode := .apply (.output none) }.execute =
      (.ok (), (world.reported made.told).printed (Document.content made.edited)) ∧
    (∀ target path files, plan.destination target = some path →
      world.files.write path (Document.content made.edited).toUTF8 = .ok files →
      world.run { plan with mode := .apply target }.execute =
          (.ok (), (world.reported made.told).withFiles files) ∧
        files.readText path = .ok (Document.content made.edited) ∧
        world.files.Written path (Document.content made.edited).toUTF8 files) ∧
    world.run { plan with mode := .preview }.execute =
      (.ok (), (world.reported (plan.listing made.batch)).printed (previewLine made.caret)) ∧
    (∀ offset position, made.caret = some offset →
      Document.offsetToPosition made.edited offset.toNat = position →
      previewLine made.caret = s!"{offset.toNat}\n" ∧
        made.told = plan.listing made.batch ++
          s!"caret: {offset.toNat} ({position.line + 1}:{position.column + 1})\n") ∧
    (previewLine made.caret = "unknown\n" ↔ made.told = plan.listing made.batch) ∧
    (made.told = plan.listing made.batch ↔ made.script.ops = []) := by
  refine ⟨made.run_output, ?_, made.run_preview, ?_, ?_, ?_⟩
  · intro target path files hpath hwrite
    have hwritten := FileSystem.written_of_write hwrite
    exact ⟨made.run_file hpath hwrite, FileSystem.readText_eq_ok_of_read hwritten.content, hwritten⟩
  · rintro offset position hcaret rfl
    rw [Made.told, hcaret]
    exact ⟨rfl, rfl⟩
  · rw [previewLine_eq_unknown_iff, made.told_eq_listing_iff]
  · rw [made.told_eq_listing_iff, made.caret_eq_none_iff]

/-- An exclamation mark is put behind the text of a document that is to be replaced. -/
theorem execute_modes_appended :
    let plan : Plan := ⟨⟨"doc"⟩, ⟨"edits.json"⟩, .apply .inPlace, .flat, false⟩
    let world : World := { files.entries :=
      [(["doc".toList], .file "abc".toUTF8),
        (["edits.json".toList], .file "[[[\"insert\",3,\"!\"]]]".toUTF8)] }
    ∃ (made : plan.Made world) (files : FileSystem),
      Document.content made.edited = "abc!" ∧ made.caret = some 4 ∧
      world.run { plan with mode := .apply .inPlace }.execute =
        (.ok (), (world.reported made.told).withFiles files) ∧
      files.readText ⟨"doc"⟩ = .ok (Document.content made.edited) ∧
      made.told = plan.listing made.batch ++ "caret: 4 (1:5)\n" := by
  intro plan world
  have hcompiled : Script.compile ⟨[.insert 3 "!"]⟩ (⟨"abc"⟩ : FlatText) =
      .ok ⟨[.insertion 3 "!"]⟩ := by decide +kernel
  have happlied : (⟨[.insertion 3 "!"]⟩ : Batch).apply (⟨"abc"⟩ : FlatText) =
      (⟨"abc!"⟩, .ok (some 4)) := by decide +kernel
  let made : plan.Made world :=
    { text := "abc", script := ⟨[.insert 3 "!"]⟩, batch := ⟨[.insertion 3 "!"]⟩
      edited := (⟨"abc!"⟩ : FlatText), caret := some 4
      read := by decide +kernel, stored := by decide +kernel
      compiled := hcompiled, applied := happlied }
  have hposition : Document.offsetToPosition made.edited (4 : Offset).toNat = ⟨0, 4⟩ := by
    change Document.offsetToPosition (⟨"abc!"⟩ : FlatText) (4 : Offset).toNat = ⟨0, 4⟩
    decide +kernel
  obtain ⟨files, hwrite⟩ : ∃ files,
      world.files.write ⟨"doc"⟩ (Document.content made.edited).toUTF8 = .ok files := ⟨_, rfl⟩
  obtain ⟨-, hfile, -, hcaret, -⟩ := execute_modes plan world made
  obtain ⟨hrun, hread, -⟩ := hfile .inPlace ⟨"doc"⟩ files rfl hwrite
  exact ⟨made, files, rfl, rfl, hrun, hread, (hcaret 4 ⟨0, 4⟩ rfl hposition).2⟩

end Plan

end EditBatch
