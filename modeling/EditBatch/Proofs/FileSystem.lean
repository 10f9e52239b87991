import EditBatch.FileSystem
import Mathlib.Tactic.Common
set_option autoImplicit false

/-!
# What the writing of a file changes

Only a place that is no directory can be written to, and it is none afterwards either. So every path
leads where it led before, the content is read back from the file, and nothing else changes.

## Main definitions

* `EditBatch.FileSystem.Written` — one file has a given content, and all else is as it was.

## Main results

* `EditBatch.FileSystem.readText_eq_ok_of_read` — a text that was written as bytes is read as a
  text.
* `EditBatch.FileSystem.locate_put_eq_ok_iff` — all paths lead where they led before.
* `EditBatch.FileSystem.written_of_write` — what is written is read back, and no other file changes.
-/

namespace EditBatch

/-- A computation that goes on with a value gives a result if it gives the value and goes on to the
result. -/
lemma bind_eq_ok_iff {ε α β : Type} {first : Except ε α} {next : α → Except ε β} {result : β} :
    (first >>= next) = .ok result ↔ ∃ value, first = .ok value ∧ next value = .ok result := by
  cases first with
  | error cause =>
    constructor
    · rintro ⟨⟩
    · rintro ⟨value, h, -⟩
      cases h
  | ok value =>
    constructor
    · exact fun h => ⟨value, rfl, h⟩
    · rintro ⟨other, h, hnext⟩
      cases h
      exact hnext

lemma mapError_eq_ok_iff {ε δ α : Type} {f : ε → δ} {outcome : Except ε α} {value : α} :
    outcome.mapError f = .ok value ↔ outcome = .ok value := by
  cases outcome <;> simp [Except.mapError]

namespace FileSystem

/-! ## Ways through a changed file system -/

section Put

variable {files : FileSystem} {location : Location}

lemma enter_eq_ok_iff (files : FileSystem) (place : Location) (entered : Unit) :
    files.enter place = .ok entered ↔ files.lookup place = some .directory := by
  rw [enter]
  rcases files.lookup place with _ | _ | _ | _ <;> simp

/-- What is no directory is not the root. -/
lemma ne_nil_of_lookup_ne (h : files.lookup location ≠ some .directory) : location ≠ [] := by
  rintro rfl
  exact h rfl

variable (h : files.lookup location ≠ some .directory) (content : ByteArray)
include h

/-- A file in the place of what is no directory changes no directory. -/
lemma lookup_put_eq_directory_iff (place : Location) :
    (files.put location (.file content)).lookup place = some .directory ↔
      files.lookup place = some .directory := by
  by_cases hplace : place = location
  · subst hplace
    simp [lookup_put files (ne_nil_of_lookup_ne h), h]
  · rw [lookup_put_of_ne files hplace]

/-- A step leads where it led before. -/
lemma step_put_eq_ok_iff (place next : Location) (piece : List Char) :
    (files.put location (.file content)).step place piece = .ok next ↔
      files.step place piece = .ok next := by
  simp only [step, bind_eq_ok_iff, enter_eq_ok_iff,
    lookup_put_eq_directory_iff h content]

/-- **All paths lead where they led before.** -/
lemma locate_put_eq_ok_iff (path : Path) (place : Location) :
    (files.put location (.file content)).locate path = .ok place ↔
      files.locate path = .ok place := by
  have hway : ∀ (pieces : List (List Char)) (start : Location),
      pieces.foldlM (files.put location (.file content)).step start = .ok place ↔
        pieces.foldlM files.step start = .ok place := by
    intro pieces
    induction pieces with
    | nil => exact fun _ => Iff.rfl
    | cons piece rest ih =>
      intro start
      simp only [List.foldlM_cons, bind_eq_ok_iff, step_put_eq_ok_iff h content, ih]
  rw [locate, locate]
  split_ifs
  · rfl
  · exact hway _ _

end Put

/-! ## Reading -/

/-- A content is read from a path that leads to a file with this content. -/
lemma read_eq_ok_iff (files : FileSystem) (path : Path) (content : ByteArray) :
    files.read path = .ok content ↔
      ∃ place, files.locate path = .ok place ∧ files.lookup place = some (.file content) := by
  rw [read, bind_eq_ok_iff]
  refine exists_congr fun place => and_congr_right fun _ => ?_
  rcases files.lookup place with _ | _ | _ | _ <;>
    simp [throw, throwThe, MonadExceptOf.throw, pure, Except.pure]

/-- A text that is kept as bytes is read as a text. -/
lemma readText_eq_ok_of_read {files : FileSystem} {path : Path} {text : String}
    (h : files.read path = .ok text.toUTF8) : files.readText path = .ok text := by
  have hdecode : String.fromUTF8? text.toUTF8 = some text := dif_pos text.isValidUTF8
  rw [readText, h]
  simp only [bind, Except.bind, hdecode]
  rfl

/-! ## Writing -/

/-- What one written file leaves behind: its content is read back, a content is read from another
path if and only if it was read there before, and no other place has changed. Only the cause for
which nothing is read may differ, as when a path leads through a file where nothing stood. -/
structure Written (files : FileSystem) (path : Path) (content : ByteArray) (after : FileSystem) :
    Prop where
  content : after.read path = .ok content
  others (other : Path) (kept : ByteArray) (apart : files.locate other ≠ files.locate path) :
    after.read other = .ok kept ↔ files.read other = .ok kept
  places (place : Location) (apart : files.locate path ≠ .ok place) :
    after.lookup place = files.lookup place

/-- A path that can be written to leads to what is no directory. -/
lemma exists_of_write {files after : FileSystem} {path : Path} {content : ByteArray}
    (h : files.write path content = .ok after) :
    ∃ location, files.locate path = .ok location ∧ files.lookup location ≠ some .directory ∧
      after = files.put location (.file content) := by
  rw [write, bind_eq_ok_iff] at h
  obtain ⟨location, htarget, hput⟩ := h
  have hlocate : files.locate path = .ok location := by
    rw [locateTarget] at htarget
    split_ifs at htarget
    · obtain ⟨_, -, hthrow⟩ := bind_eq_ok_iff.mp htarget
      cases hthrow
    · exact htarget
  refine ⟨location, hlocate, ?_⟩
  rcases hentry : files.lookup location with _ | old | _ | cause <;> rw [hentry] at hput
  · cases hput
    exact ⟨nofun, rfl⟩
  · cases hput
    exact ⟨nofun, rfl⟩
  · cases hput
  · cases hput

/-- **What is written is read back, and no other file changes.** -/
lemma written_of_write {files after : FileSystem} {path : Path} {content : ByteArray}
    (h : files.write path content = .ok after) : Written files path content after := by
  obtain ⟨location, hlocate, hentry, rfl⟩ := exists_of_write h
  have hroot := ne_nil_of_lookup_ne hentry
  refine ⟨?_, ?_, ?_⟩
  · rw [read_eq_ok_iff]
    exact ⟨location, (locate_put_eq_ok_iff hentry content path location).mpr hlocate,
      lookup_put files hroot _⟩
  · intro other kept apart
    rw [read_eq_ok_iff, read_eq_ok_iff]
    refine exists_congr fun place => ?_
    rw [locate_put_eq_ok_iff hentry content]
    refine and_congr_right fun hplace => ?_
    have hne : place ≠ location := by
      rintro rfl
      exact apart (hplace.trans hlocate.symm)
    rw [lookup_put_of_ne files hne]
  · intro place apart
    have hne : place ≠ location := by
      rintro rfl
      exact apart hlocate
    exact lookup_put_of_ne files hne _

end FileSystem

end EditBatch
