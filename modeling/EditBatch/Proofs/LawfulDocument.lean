import EditBatch.Document.FlatText
import EditBatch.Document.Rope
import Mathlib.Tactic.Common
set_option autoImplicit false

/-!
# Stores that keep their text

What is proved about batches holds of every store whose insertions and removals do to the
characters of a document what they say. Both stores of the library are of this kind.

## Main definitions

* `EditBatch.Document.chars` — the characters of a document.
* `EditBatch.LawfulDocument` — stores whose operations act on the characters as named.

## Main results

* `EditBatch.Document.exists_replace_eq_ok` — a change inside the document is made, and it is a
  splice of the characters.
* `EditBatch.Document.replace_eq_error` — a change that is not inside is refused.
* `EditBatch.Document.chars_of_replace` — what is known of a change that is made.
-/

namespace EditBatch

/-- The characters of a document. -/
def Document.chars {D : Type} [Document D] (document : D) : List Char :=
  (Document.content document).toList

/-- A store whose operations do to the characters of a document what they are named for. -/
class LawfulDocument (D : Type) [Document D] : Prop where
  /-- The length counts the characters. -/
  length_eq (document : D) : Document.length document = (Document.chars document).length
  /-- An insertion splits the characters and puts the text between the parts. -/
  chars_insert (document : D) (offset : ℕ) (text : String) :
    Document.chars (Document.insert document offset text) =
      (Document.chars document).take offset ++ text.toList ++
        (Document.chars document).drop offset
  /-- A removal that is made leaves what stands before and after its range. -/
  chars_remove (document shorter : D) (start stop : ℕ) (order : start ≤ stop)
    (removed : Document.remove? document start stop = some shorter) :
    Document.chars shorter =
      (Document.chars document).take start ++ (Document.chars document).drop stop

namespace Document

variable {D : Type} [Document D] [LawfulDocument D]

/-- **A change inside the document is made**: the given characters give way to the text, and all
others stay. -/
theorem exists_replace_eq_ok (document : D) (offset count : ℕ) (text : String)
    (inside : offset + count ≤ length document) :
    ∃ changed, replace document offset count text = .ok changed ∧
      chars changed = (chars document).take offset ++ text.toList ++
        (chars document).drop (offset + count) := by
  obtain ⟨removed, hremove⟩ := Option.isSome_iff_exists.mp
    (remove?_isSome document offset (offset + count) (Nat.le_add_right offset count))
  obtain ⟨shortened, hshortened⟩ : ∃ shortened, shortened =
      if 0 < count then removed else document := ⟨_, rfl⟩
  have hchars : chars shortened =
      (chars document).take offset ++ (chars document).drop (offset + count) := by
    rw [hshortened]
    split_ifs with hcount
    · exact LawfulDocument.chars_remove _ _ _ _ (Nat.le_add_right offset count) hremove
    · obtain rfl : count = 0 := by omega
      simp
  refine ⟨if text.isEmpty then shortened else insert shortened offset text, ?_, ?_⟩
  · rw [replace, if_pos inside]
    simp only [hremove, Option.get_some, hshortened]
  · split_ifs with htext
    · simp [hchars, String.isEmpty_iff.mp htext]
    · have hlength : ((chars document).take offset).length = offset := by
        rw [LawfulDocument.length_eq] at inside
        exact List.length_take_of_le (by omega)
      rw [LawfulDocument.chars_insert, hchars, List.take_left' hlength, List.drop_left' hlength]

omit [LawfulDocument D] in
/-- A change that reaches beyond the document is refused. -/
theorem replace_eq_error (document : D) {offset count : ℕ} (text : String)
    (beyond : length document < offset + count) :
    replace document offset count text =
      .error (.invalidOffset offset count (length document)) := by
  rw [replace, if_neg (by omega)]

/-- **A change that is made** lies inside the document, and is a splice of its characters. -/
theorem chars_of_replace {document changed : D} {offset count : ℕ} {text : String}
    (h : replace document offset count text = .ok changed) :
    offset + count ≤ length document ∧
      chars changed = (chars document).take offset ++ text.toList ++
        (chars document).drop (offset + count) := by
  have inside : offset + count ≤ length document := by
    by_contra beyond
    rw [replace_eq_error document text (Nat.not_le.mp beyond)] at h
    cases h
  obtain ⟨spliced, hspliced, hchars⟩ := exists_replace_eq_ok document offset count text inside
  obtain rfl := Except.ok.inj (hspliced.symm.trans h)
  exact ⟨inside, hchars⟩

end Document

instance : LawfulDocument FlatText where
  length_eq _ := rfl
  chars_insert document offset text := by
    simp [Document.chars, Document.content, Document.insert, FlatText.insert, FlatText.chars,
      insertAtByte?_byteOffset]
  chars_remove document shorter start stop order removed := by
    simp only [Document.remove?, FlatText.remove?,
      removeBytes?_byteOffset document.chars order, Option.map_some, Option.some.injEq] at removed
    subst removed
    simp [Document.chars, Document.content, FlatText.chars]

namespace Rope

/-- The length of a rope counts its characters. -/
lemma length_chars (rope : Rope) : rope.chars.length = totalLength rope.lines :=
  length_flatten rope.lines

end Rope

instance : LawfulDocument Rope where
  length_eq rope := by
    simp [Document.length, Document.chars, Document.content, Rope.length_chars]
  chars_insert rope offset text := by
    simp [Document.chars, Document.content, Document.insert, Rope.insert, ← Rope.length_chars,
      ← List.take_eq_take_min, ← List.drop_eq_drop_min]
  chars_remove rope shorter start stop order removed := by
    obtain rfl : rope.remove start stop = shorter := Option.some.inj removed
    simp only [Document.chars, Document.content, Rope.remove, ← Rope.length_chars,
      String.toList_ofList]
    split_ifs with hcut
    · simp [← List.take_eq_take_min, ← List.drop_eq_drop_min]
    · -- nothing lies in the range, so that its two sides meet
      have hmeet : min stop rope.chars.length = min start rope.chars.length := by omega
      rw [List.drop_eq_drop_min, hmeet, ← List.drop_eq_drop_min, List.take_append_drop]

end EditBatch
