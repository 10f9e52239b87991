import EditBatch.Proofs.Execution
import EditBatch.Proofs.FileSystem
import EditBatch.Proofs.Yaml.Documents
import EditBatch.Settings.Storage
set_option autoImplicit false

/-!
# Settings read back from where they were saved

Settings are written as a document with three entries. The marker is any text or none at all: none
is written as null without quotes, and a text that reads as null is written between quotes. So what
is saved is never taken for the defaults, to which every mistake in a file would lead.

## Main definitions

* `EditBatch.Settings.entries` — settings as entries of a mapping.

## Main results

* `EditBatch.Settings.readSettings_entries` — the mapping of settings is decoded to the settings.
* `EditBatch.Settings.loadFrom_of_save` — settings that were saved are loaded unchanged.
-/

namespace EditBatch

open Yaml

namespace Settings

/-! ## Settings as entries -/

/-- The marker as an entry. -/
def markerItem (marker : Option String) : Yaml.Entry 0 where
  name := markerKey
  value := match marker with
    | none => "null".toList ++ ['\n']
    | some text => writeText (0 + indentWidth) text
  node := match marker with
    | none => .scalar none .plain "null"
    | some text => .scalar none (styleFor text) text
  isWordChar_name := List.all_eq_true.mp (by decide)
  name_ne_nil := by decide
  length_name_le := by decide
  readsAs := by
    cases marker with
    | none => exact readsAs_word 0 (List.all_eq_true.mp (by decide)) (by decide)
    | some text => exact readsAs_writeText 0 text

/-- The backend as an entry. -/
def backendItem (backend : Backend) : Yaml.Entry 0 where
  name := backendKey
  value := backend.name.toList ++ ['\n']
  node := .scalar none .plain backend.name
  isWordChar_name := List.all_eq_true.mp (by decide)
  name_ne_nil := by decide
  length_name_le := by decide
  readsAs := by
    cases backend <;> exact readsAs_word 0 (List.all_eq_true.mp (by decide)) (by decide)

/-- The word for whether logs are kept. -/
def loggingWord (fileLogging : Bool) : String := if fileLogging then "true" else "false"

/-- Whether logs are kept, as an entry. -/
def loggingItem (fileLogging : Bool) : Yaml.Entry 0 where
  name := loggingKey
  value := (loggingWord fileLogging).toList ++ ['\n']
  node := .scalar none .plain (loggingWord fileLogging)
  isWordChar_name := List.all_eq_true.mp (by decide)
  name_ne_nil := by decide
  length_name_le := by decide
  readsAs := by
    cases fileLogging <;> exact readsAs_word 0 (List.all_eq_true.mp (by decide)) (by decide)

variable (settings : Settings)

/-- The entries behind the marker. -/
def otherItems : List (Yaml.Entry 0) :=
  [backendItem settings.backend, loggingItem settings.fileLogging]

lemma written_markerItem (marker : Option String) :
    (markerItem marker).written = markerEntry marker := by
  cases marker with
  | none => simp [markerItem, Yaml.Entry.written, markerEntry, writeWordEntry]
  | some text => rfl

/-- **Settings are written as their entries are.** -/
lemma toYaml_eq_lines : settings.toYaml =
    String.ofList (Yaml.Entry.lines (markerItem settings.cursorMarker :: settings.otherItems)) := by
  have hbackend : (backendItem settings.backend).written =
      writeWordEntry backendKey settings.backend.name := by
    simp [backendItem, Yaml.Entry.written, writeWordEntry]
  have hlogging : (loggingItem settings.fileLogging).written =
      writeWordEntry loggingKey (loggingWord settings.fileLogging) := by
    simp [loggingItem, Yaml.Entry.written, writeWordEntry]
  rw [toYaml, ← written_markerItem, ← loggingWord, ← hbackend, ← hlogging]
  simp [Yaml.Entry.lines, otherItems, spaces]

/-! ## Entries as settings -/

variable {anchored : Yaml.Anchored}

/-- A text that is written without quotes does not read as null. -/
lemma not_null_of_plain {text : String} (h : styleFor text = .plain) :
    (text.isEmpty || isNull text) = false := by
  rcases styleFor_cases text with ⟨hstyle, -⟩ | ⟨-, hambiguous, -⟩ | ⟨hstyle, -⟩ | hstyle
  case inr.inl =>
    rw [← Bool.not_eq_true]
    intro hnull
    rw [isAmbiguous, meaning, if_pos hnull] at hambiguous
    cases hambiguous
  all_goals
    rw [hstyle] at h
    cases h

/-- **The entry of a marker is decoded to the marker**, also where its text reads as null. -/
lemma readMarker_markerItem (marker : Option String) :
    readMarker anchored (markerItem marker).node = pure marker := by
  cases marker with
  | none => rfl
  | some text =>
    have hread : readMarker anchored (markerItem (some text)).node =
        if styleFor text ≠ .plain then pure (some text)
        else pure (if text.isEmpty || isNull text then none else some text) := rfl
    rw [hread]
    split_ifs with hstyle hnull
    · rfl
    · rw [not_null_of_plain (not_not.mp hstyle)] at hnull
      cases hnull
    · rfl

lemma readBackend_backendItem (backend : Backend) :
    readBackend anchored (backendItem backend).node = pure backend := by
  have hread : readBackend anchored (backendItem backend).node =
      liftM (Backend.ofName? backend.name) := rfl
  rw [hread, Backend.ofName?_name]
  rfl

lemma readSwitch_loggingItem (fileLogging : Bool) :
    readSwitch anchored (loggingItem fileLogging).node = pure fileLogging := by
  cases fileLogging <;> rfl

/-- The three names are told apart, and each leads to the setting that it stands for. -/
lemma readSettingsEntries_items : readSettingsEntries anchored {}
    ((markerItem settings.cursorMarker :: settings.otherItems).map Yaml.Entry.nodes) =
      pure ⟨some settings.cursorMarker, some settings.backend, some settings.fileLogging⟩ := by
  have hkey : ∀ name, scalarText anchored (.scalar none .plain name) = pure name := fun _ => rfl
  have hnames : backendKey ≠ markerKey ∧ loggingKey ≠ markerKey ∧ loggingKey ≠ backendKey := by
    decide
  have hmarker : (markerItem settings.cursorMarker).name = markerKey := rfl
  have hbackend : (backendItem settings.backend).name = backendKey := rfl
  have hlogging : (loggingItem settings.fileLogging).name = loggingKey := rfl
  simp [otherItems, Yaml.Entry.nodes, readSettingsEntries, once, hkey, hnames, hmarker, hbackend,
    hlogging, readMarker_markerItem, readBackend_backendItem, readSwitch_loggingItem]

/-- **The mapping of settings is decoded to the settings.** -/
lemma readSettings_items : readSettings anchored (.mapping none
    ((markerItem settings.cursorMarker :: settings.otherItems).map Yaml.Entry.nodes)) =
      pure settings := by
  have hfollow : ∀ entries,
      follow anchored (.mapping none entries) = pure (.mapping none entries) :=
    fun _ => rfl
  rw [readSettings, hfollow, pure_bind]
  dsimp only
  rw [readSettingsEntries_items, pure_bind]
  rfl

/-- **Settings are read back from what is written.** -/
lemma ofYaml?_of_settings : ofYaml? settings.toYaml = some settings := by
  obtain ⟨anchored, hread⟩ :=
    exists_readDocument_entries (markerItem settings.cursorMarker) settings.otherItems
  rw [ofYaml?, toYaml_eq_lines, hread]
  simp only [Option.bind_eq_bind, Option.bind_some, Decoder.decode?]
  rw [readSettings_items]
  rfl

/-! ## Files -/

/-- A text that was written is read back. -/
lemma readText_of_run_writeText {ε : Type} {path : Path} {text : String} {reason : FileError → ε}
    {world after : World}
    (h : world.run (Host.attempt (Host.writeText path text) reason) = (.ok (), after)) :
    after.files.readText path = .ok text := by
  rw [World.run_writeText] at h
  cases hwrite : world.files.write path text.toUTF8 with
  | error cause =>
    rw [hwrite] at h
    cases h
  | ok files =>
    rw [hwrite] at h
    obtain rfl : world.withFiles files = after := congrArg Prod.snd h
    exact FileSystem.readText_eq_ok_of_read (FileSystem.written_of_write hwrite).content

/-- Saving ends with writing the settings, after which the file holds them. -/
lemma readText_of_save {path : Path} {world after : World}
    (h : world.run (save settings path) = (.ok (), after)) :
    after.files.readText path = .ok settings.toYaml := by
  rw [save] at h
  cases hparent : path.parent? with
  | none =>
    rw [hparent] at h
    exact readText_of_run_writeText h
  | some parent =>
    rw [hparent] at h
    change world.run (Host.attempt _ _ >>= _) = _ at h
    rw [World.run_bind] at h
    split at h
    · exact readText_of_run_writeText h
    · cases h

/-- **Settings that were saved are loaded unchanged**, whatever the marker and wherever they are
saved. Loading leaves the world as it is.

**Proof sketch.** What is written last is read back from the file (`FileSystem.written_of_write`).
It is a document of three entries, which are read as they are written
(`exists_readDocument_entries`). A marker that would read as null is not written without quotes
(`not_null_of_plain`), so that it is decoded to its text and not to none. -/
theorem loadFrom_of_save {path : Path} {world after : World}
    (h : world.run (save settings path) = (.ok (), after)) :
    (loadFrom path : StateM World Settings).run after = (settings, after) := by
  have hload : (loadFrom path : StateM World Settings).run after =
      (ofContent (after.files.readText path), after) := rfl
  rw [hload, settings.readText_of_save h, ofContent, ofYaml?_of_settings]
  rfl

/-- A marker that reads as null, saved in a directory that is not there yet. -/
theorem loadFrom_of_save_null :
    let settings : Settings := ⟨some "~", .flat, false⟩
    let path : Path := ⟨"a/config.yaml"⟩
    ∃ after, ({} : World).run (save settings path) = (.ok (), after) ∧
      (loadFrom path : StateM World Settings).run after = (settings, after) := by
  intro settings path
  have hsave : (({} : World).run (save settings path)).1 = .ok () := by decide +kernel
  exact ⟨_, Prod.ext hsave rfl, loadFrom_of_save settings (Prod.ext hsave rfl)⟩

end Settings

end EditBatch
