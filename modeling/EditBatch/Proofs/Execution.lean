import EditBatch.Host.World
import EditBatch.Program
import EditBatch.Proofs.LawfulLines
set_option autoImplicit false

/-!
# What a run does to a world

A run first reads and checks all that it needs, then makes the edits in memory, then tells where the
caret is, and writes at the very end. So up to that end it can fail and leave no trace but messages.

## Main definitions

* `EditBatch.Backend.Store` — the documents of a backend.
* `EditBatch.World.run` — computations as functions of worlds.
* `EditBatch.Plan.prepared` — what a plan makes of the files it reads.

## Main results

* `EditBatch.Plan.run_execute_of_unprepared`, `EditBatch.Plan.run_execute_preview`,
  `EditBatch.Plan.run_execute_of_not_applied`, `EditBatch.Plan.run_execute_of_applied` — the courses
  that a run can take.
* `EditBatch.Plan.run_deliver_output`, `EditBatch.Plan.run_deliver_file` — how the edited document
  is written.
* `EditBatch.Plan.execute_failed` — what a run leaves as it was when it fails.
-/

namespace EditBatch

/-! ## Documents of a backend -/

namespace Backend

/-- The documents that a backend keeps. -/
def Store : Backend → Type
  | rope => Rope
  | flat => FlatText

instance (backend : Backend) : Document backend.Store :=
  match backend with
  | rope => inferInstanceAs (Document Rope)
  | flat => inferInstanceAs (Document FlatText)

instance (backend : Backend) : LawfulDocument backend.Store :=
  match backend with
  | rope => inferInstanceAs (LawfulDocument Rope)
  | flat => inferInstanceAs (LawfulDocument FlatText)

instance (backend : Backend) : LawfulLines backend.Store :=
  match backend with
  | rope => inferInstanceAs (LawfulLines Rope)
  | flat => inferInstanceAs (LawfulLines FlatText)

/-- A document has the characters of the text that it is made of. -/
lemma chars_ofText (backend : Backend) (text : String) :
    Document.chars (Document.ofText text : backend.Store) = text.toList := by
  cases backend with
  | rope =>
    change (String.ofList (Rope.ofChars text.toList).chars).toList = text.toList
    rw [Rope.chars_ofChars, String.toList_ofList]
  | flat => rfl

end Backend

/-! ## Computations in a world -/

namespace World

/-- The world with a text behind its output. -/
def printed (world : World) (text : String) : World := { world with output := world.output ++ text }

/-- The world with a text behind its messages. -/
def reported (world : World) (text : String) : World :=
  { world with messages := world.messages ++ text }

/-- The world with other files. -/
def withFiles (world : World) (files : FileSystem) : World := { world with files := files }

/-- A computation in a world: how it ends, and the world that it leaves. -/
def run {ε α : Type} (world : World) (action : ExceptT ε (StateM World) α) : Except ε α × World :=
  action.run.run world

variable {ε α β : Type} (world : World)

@[simp] lemma files_reported (text : String) : (world.reported text).files = world.files := rfl

lemma reported_empty : world.reported "" = world := by
  simp only [reported, String.append_empty]

lemma reported_reported (first second : String) :
    (world.reported first).reported second = world.reported (first ++ second) := by
  simp only [reported, String.append_assoc]

/-- A computation that goes on goes on in the world that its first part leaves. -/
lemma run_bind (action : ExceptT ε (StateM World) α) (next : α → ExceptT ε (StateM World) β) :
    world.run (action >>= next) =
      match world.run action with
      | (.ok value, left) => left.run (next value)
      | (.error cause, left) => (.error cause, left) := by
  simp only [run, ExceptT.run_bind, StateT.run_bind]
  rcases action.run.run world with ⟨cause | value, left⟩ <;> rfl

variable {world} in
/-- Computations that change nothing compose to one that changes nothing. -/
lemma run_bind_of_unchanged {action : ExceptT ε (StateM World) α}
    {next : α → ExceptT ε (StateM World) β} {outcome : Except ε α} {rest : α → Except ε β}
    (h : world.run action = (outcome, world))
    (hnext : ∀ value, world.run (next value) = (rest value, world)) :
    world.run (action >>= next) = (outcome >>= rest, world) := by
  rw [run_bind, h]
  cases outcome with
  | error cause => rfl
  | ok value => exact hnext value

/-- What is settled without the system does not change the world. -/
lemma run_mk_pure (outcome : Except ε α) :
    world.run (ExceptT.mk (pure outcome)) = (outcome, world) := rfl

lemma run_adapt {δ : Type} (action : ExceptT ε (StateM World) α) (reason : ε → δ) :
    world.run (action.adapt reason) =
      ((world.run action).1.mapError reason, (world.run action).2) := rfl

lemma run_print (text : String) :
    world.run (ExceptT.lift (Host.print text) : ExceptT ε (StateM World) Unit) =
      (.ok (), world.printed text) := rfl

lemma run_report (text : String) :
    world.run (ExceptT.lift (Host.report text) : ExceptT ε (StateM World) Unit) =
      (.ok (), world.reported text) := rfl

/-- Reading changes nothing. -/
lemma run_readText (path : Path) (reason : FileError → ε) :
    world.run (Host.attempt (Host.readText path) reason) =
      ((world.files.readText path).mapError reason, world) := rfl

/-- Writing changes the files, unless it fails. -/
lemma run_writeText (path : Path) (text : String) (reason : FileError → ε) :
    world.run (Host.attempt (Host.writeText path text) reason) =
      match world.files.write path text.toUTF8 with
      | .ok files => (.ok (), world.withFiles files)
      | .error cause => (.error (reason cause), world) := by
  change ((world.writeText path text).1.mapError reason, (world.writeText path text).2) = _
  rw [writeText]
  cases world.files.write path text.toUTF8 <;> rfl

end World

/-! ## Preparing -/

/-- The script that a file holds. -/
def Script.stored (path : Path) (files : FileSystem) : Except ScriptError Script :=
  (files.readText path).mapError .unreadable >>= ofText (.ofPath path)

/-- Loading a script changes nothing. -/
lemma Script.run_load (path : Path) (world : World) :
    world.run (load path) = (stored path world.files, world) := by
  exact World.run_bind_of_unchanged (world.run_readText path _) fun _ => rfl

namespace Plan

variable (plan : Plan) (world : World) {D : Type} [Document D]

/-- The document and the batch that a plan makes of the files that it reads. -/
def prepared (D : Type) [Document D] (files : FileSystem) : Except Failure (D × Batch) := do
  let text ← (files.readText plan.file).mapError (.unreadable plan.file)
  let script ← (Script.stored plan.script files).mapError (.badScript plan.script)
  let batch ← (script.compile (Document.ofText text : D)).mapError (.notFitting plan.file)
  return (Document.ofText text, batch)

/-- **Preparing changes nothing**, whether it succeeds or not. -/
lemma run_prepare (D : Type) [Document D] :
    world.run (plan.prepare D) = (plan.prepared D world.files, world) := by
  refine World.run_bind_of_unchanged (world.run_readText plan.file _) fun text => ?_
  refine World.run_bind_of_unchanged ?_ fun script => ?_
  · rw [World.run_adapt, Script.run_load]
  · exact World.run_bind_of_unchanged (world.run_mk_pure _) fun batch => rfl

/-! ## Reporting -/

/-- What a run reports of its batch before it does anything with it. -/
def listing (batch : Batch) : String := if plan.printEdits then batch.render ++ "\n" else ""

/-- What a run reports of the caret in an edited document. -/
def caretReport (document : D) : Option Offset → String
  | some offset => caretLine document offset
  | none => ""

lemma run_listing (batch : Batch) (rest : ExceptT Failure (StateM World) Unit) :
    world.run (if plan.printEdits then do
        ExceptT.lift (Host.report (batch.render ++ "\n"))
        rest
      else rest) = (world.reported (plan.listing batch)).run rest := by
  rw [listing]
  split_ifs
  · rw [World.run_bind, World.run_report]
  · rw [World.reported_empty]

lemma run_caretReport (document : D) (caret : Option Offset)
    (rest : ExceptT Failure (StateM World) Unit) :
    world.run (match caret with
      | some offset => do
        ExceptT.lift (Host.report (caretLine document offset))
        rest
      | none => rest) = (world.reported (caretReport document caret)).run rest := by
  cases caret with
  | some offset => rw [World.run_bind, World.run_report, caretReport]
  | none => rw [caretReport, World.reported_empty]

/-! ## The courses of a run -/

lemma execute_eq :
    (plan.execute : ExceptT Failure (StateM World) Unit) = plan.executeWith plan.backend.Store := by
  rw [execute]
  cases plan.backend <;> rfl

variable {plan world} {document edited : plan.backend.Store} {batch : Batch} {target : Target}

/-- A run whose files are not what they should be ends at once. -/
lemma run_execute_of_unprepared {failure : Failure}
    (h : plan.prepared plan.backend.Store world.files = .error failure) :
    world.run plan.execute = (.error failure, world) := by
  rw [execute_eq, executeWith, World.run_bind, run_prepare, h]

/-- A preview tells where the caret would be. -/
lemma run_execute_preview
    (h : plan.prepared plan.backend.Store world.files = .ok (document, batch))
    (hmode : plan.mode = .preview) :
    world.run plan.execute =
      (.ok (), (world.reported (plan.listing batch)).printed (previewLine batch.preview)) := by
  rw [execute_eq, executeWith, World.run_bind, run_prepare, h]
  simp only [hmode]
  exact plan.run_listing world batch _

/-- A run ends when an edit is refused. -/
lemma run_execute_of_not_applied {cause : EditError}
    (h : plan.prepared plan.backend.Store world.files = .ok (document, batch))
    (hmode : plan.mode = .apply target) (happly : batch.apply document = (edited, .error cause)) :
    world.run plan.execute =
      (.error (.notApplied plan.file cause), world.reported (plan.listing batch)) := by
  rw [execute_eq, executeWith, World.run_bind, run_prepare, h]
  simp only [hmode, happly]
  exact plan.run_listing world batch _

/-- When all edits have been made, a run tells where the caret is, and writes. -/
lemma run_execute_of_applied {caret : Option Offset}
    (h : plan.prepared plan.backend.Store world.files = .ok (document, batch))
    (hmode : plan.mode = .apply target) (happly : batch.apply document = (edited, .ok caret)) :
    world.run plan.execute =
      (world.reported (plan.listing batch ++ caretReport edited caret)).run
        (plan.deliver target edited caret) := by
  rw [execute_eq, executeWith, World.run_bind, run_prepare, h, ← World.reported_reported]
  simp only [hmode, happly]
  refine (plan.run_listing world batch _).trans ?_
  refine Eq.trans ?_ (run_caretReport _ edited caret _)
  cases caret <;> rfl

/-! ## Writing -/

/-- The file that a target stands for. -/
def destination (plan : Plan) : Target → Option Path
  | .output _ => none
  | .file path => some path
  | .inPlace => some plan.file

/-- The output takes the edited document with the marker, if it can be marked. -/
lemma run_deliver_output (plan : Plan) (world : World) (marker : Option String) (edited : D)
    (caret : Option Offset) :
    world.run (plan.deliver (.output marker) edited caret) =
      match mark edited marker caret with
      | .ok marked => (.ok (), world.printed (Document.content marked))
      | .error cause => (.error (.notMarked cause), world) := by
  rw [deliver, World.run_bind, World.run_mk_pure]
  cases mark edited marker caret with
  | error cause => rfl
  | ok marked => exact world.run_print (Document.content marked)

/-- A file takes the edited document as it is, if it can be written. -/
lemma run_deliver_file {plan : Plan} {target : Target} {path : Path}
    (h : plan.destination target = some path) (world : World) (edited : D) (caret : Option Offset) :
    world.run (plan.deliver target edited caret) =
      match world.files.write path (Document.content edited).toUTF8 with
      | .ok files => (.ok (), world.withFiles files)
      | .error cause => (.error (.unwritable path cause), world) := by
  cases target with
  | output marker => cases h
  | file other =>
    cases h
    exact world.run_writeText path _ _
  | inPlace =>
    cases h
    exact world.run_writeText plan.file _ _

/-! ## Failing -/

/-- An edited document that cannot be delivered changes nothing, unless it is the writing that
fails. -/
lemma eq_of_run_deliver_eq_error {plan : Plan} {world final : World} {edited : D}
    {caret : Option Offset} {failure : Failure}
    (h : world.run (plan.deliver target edited caret) = (.error failure, final))
    (unwritten : ∀ path cause, failure ≠ .unwritable path cause) : final = world := by
  rcases hpath : plan.destination target with _ | path
  · obtain ⟨marker, rfl⟩ : ∃ marker, target = .output marker := by
      cases target with
      | output marker => exact ⟨marker, rfl⟩
      | file path => cases hpath
      | inPlace => cases hpath
    rw [run_deliver_output] at h
    rcases hmark : mark edited marker caret with cause | marked <;> rw [hmark] at h <;> cases h
    rfl
  · rw [run_deliver_file hpath] at h
    rcases hwrite : world.files.write path (Document.content edited).toUTF8 with cause | files <;>
      rw [hwrite] at h <;> cases h
    exact absurd rfl (unwritten path cause)

/-- **A run that fails only adds messages**, unless it is the writing that fails. -/
lemma exists_reported_of_error {failure : Failure} {final : World}
    (h : world.run plan.execute = (.error failure, final))
    (unwritten : ∀ path cause, failure ≠ .unwritable path cause) :
    ∃ told, final = world.reported told := by
  rcases hprepared : plan.prepared plan.backend.Store world.files with cause | ⟨document, batch⟩
  · rw [run_execute_of_unprepared hprepared] at h
    cases h
    exact ⟨"", world.reported_empty.symm⟩
  · rcases hmode : plan.mode with _ | target
    · rw [run_execute_preview hprepared hmode] at h
      cases h
    · rcases happly : batch.apply document with ⟨edited, cause | caret⟩
      · rw [run_execute_of_not_applied hprepared hmode happly] at h
        cases h
        exact ⟨_, rfl⟩
      · rw [run_execute_of_applied hprepared hmode happly] at h
        exact ⟨_, eq_of_run_deliver_eq_error h unwritten⟩

/-- A preview writes no file, however it ends. -/
lemma files_run_execute_preview (hmode : plan.mode = .preview) :
    (world.run plan.execute).2.files = world.files := by
  rcases hprepared : plan.prepared plan.backend.Store world.files with cause | ⟨document, batch⟩
  · rw [run_execute_of_unprepared hprepared]
  · rw [run_execute_preview hprepared hmode]
    rfl

/-- **A run that fails leaves all files as they are and puts nothing out**, whatever it was to do:
if the document or the script cannot be read, if the script does not fit the document, if an edit is
refused when others have already been made in memory, and if the edited document cannot be marked.
Only what the system does when it fails to write a file is left open. A preview writes no file even
if it succeeds.

**Proof sketch.** Reading and checking change nothing (`run_prepare`), the edits are made in memory,
and all that is done before the edited document is delivered is to report
(`exists_reported_of_error`). -/
theorem execute_failed (plan : Plan) (world : World) :
    (∀ failure final, world.run plan.execute = (.error failure, final) →
      (∀ path cause, failure ≠ .unwritable path cause) →
      final.files = world.files ∧ final.output = world.output) ∧
    (plan.mode = .preview → (world.run plan.execute).2.files = world.files) := by
  refine ⟨fun failure final h unwritten => ?_, files_run_execute_preview⟩
  obtain ⟨told, rfl⟩ := exists_reported_of_error h unwritten
  exact ⟨rfl, rfl⟩

/-- A document is to be replaced. The first edit has been made in memory when the second one is
refused. -/
theorem execute_failed_halfway :
    let plan : Plan := ⟨⟨"doc"⟩, ⟨"edits.json"⟩, .apply .inPlace, .flat, false⟩
    let world : World := { files.entries :=
      [(["doc".toList], .file "abc".toUTF8),
        (["edits.json".toList],
          .file "[[[\"insert\",0,\">\"],[\"delete\",1,9]]]".toUTF8)] }
    ∃ failure final, world.run plan.execute = (.error failure, final) ∧
      failure = .notApplied ⟨"doc"⟩ (.invalidOffset 2 8 4) ∧
      (∀ path cause, failure ≠ .unwritable path cause) ∧
      final.files = world.files ∧ final.output = world.output := by
  intro plan world
  have hcause : (world.run plan.execute).1 =
      .error (.notApplied ⟨"doc"⟩ (.invalidOffset 2 8 4)) := by decide +kernel
  have hrun : world.run plan.execute =
      (.error (.notApplied ⟨"doc"⟩ (.invalidOffset 2 8 4)), (world.run plan.execute).2) :=
    Prod.ext hcause rfl
  exact ⟨_, _, hrun, rfl, nofun, (execute_failed plan world).1 _ _ hrun nofun⟩

end Plan

end EditBatch
