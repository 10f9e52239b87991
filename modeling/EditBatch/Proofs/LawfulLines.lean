import EditBatch.Proofs.LawfulDocument
import EditBatch.Proofs.Lines
set_option autoImplicit false

/-!
# Stores that know the lines of their text

What a document says about its lines is a matter of its characters. Both stores of the library give
the same answers, one from the starts of the lines and the other from the lines themselves.

## Main definitions

* `EditBatch.lineStart` — where a line of a text starts.
* `EditBatch.spanOf`, `EditBatch.lineOf` — where a line of a text lies, and the line of an offset.
* `EditBatch.LawfulLines` — stores that answer questions about lines as their characters tell.
* `EditBatch.Document.lineTexts` — the texts of all lines of a document.

## Main results

* The instances for `EditBatch.FlatText` and `EditBatch.Rope`.
* `EditBatch.Document.lineTexts_eq` — the texts of the lines.
* `EditBatch.Document.offsetToPosition_eq` — the position of an offset.
-/

namespace EditBatch

open Document

/-! ## Lines of a text -/

/-- Where a line of a text starts: behind all lines in front of it. -/
def lineStart (text : List Char) (line : ℕ) : ℕ := ((splitLines text).take line).flatten.length

/-- Where a line of a text lies. -/
def spanOf (text : List Char) (line : ℕ) : Except EditError LineSpan :=
  match (splitLines text)[line]? with
  | some whole => .ok ⟨lineStart text line, (lineContent whole).length⟩
  | none => .error (.invalidLine line (splitLines text).length)

/-- The line that an offset of a text is on. -/
def lineOf (text : List Char) (offset : ℕ) : Except EditError ℕ :=
  if offset ≤ text.length then .ok (Rope.lineContaining offset (splitLines text))
  else .error (.invalidOffset offset 0 text.length)

lemma spanOf_eq_ok {text whole : List Char} {line : ℕ} (h : (splitLines text)[line]? = some whole) :
    spanOf text line = .ok ⟨lineStart text line, (lineContent whole).length⟩ := by
  rw [spanOf, h]

lemma spanOf_eq_error {text : List Char} {line : ℕ} (h : (splitLines text).length ≤ line) :
    spanOf text line = .error (.invalidLine line (splitLines text).length) := by
  rw [spanOf, List.getElem?_eq_none h]

/-- The lines of a text, with one of them set apart. -/
lemma splitLines_eq_append {text whole : List Char} {line : ℕ}
    (h : (splitLines text)[line]? = some whole) :
    splitLines text =
      (splitLines text).take line ++ whole :: (splitLines text).drop (line + 1) := by
  obtain ⟨hlt, rfl⟩ := List.getElem?_eq_some_iff.mp h
  rw [← List.drop_eq_getElem_cons hlt, List.take_append_drop]

/-- A text is cut into three by each of its lines. -/
lemma flatten_take_append_line {text whole : List Char} {line : ℕ}
    (h : (splitLines text)[line]? = some whole) :
    ((splitLines text).take line).flatten ++ (whole ++
      ((splitLines text).drop (line + 1)).flatten) = text := by
  have hcut := congrArg List.flatten (splitLines_eq_append h)
  rw [List.flatten_append, List.flatten_cons, flatten_splitLines] at hcut
  exact hcut.symm

/-- The next line starts where a line ends. -/
lemma lineStart_succ {text whole : List Char} {line : ℕ}
    (h : (splitLines text)[line]? = some whole) :
    lineStart text (line + 1) = lineStart text line + whole.length := by
  rw [lineStart, List.take_add_one, h, List.flatten_append, List.length_append]
  simp [lineStart]

/-- Behind the last line is the end of the text. -/
lemma lineStart_length (text : List Char) :
    lineStart text (splitLines text).length = text.length := by
  rw [lineStart, List.take_length, flatten_splitLines]

/-- What stands from the start of a line to the start of the next is the line. -/
lemma drop_take_line {text whole : List Char} {line : ℕ}
    (h : (splitLines text)[line]? = some whole) :
    (text.drop (lineStart text line)).take whole.length = whole := by
  have hdrop := congrArg (List.drop (lineStart text line)) (flatten_take_append_line h)
  rw [lineStart, List.drop_left] at hdrop
  rw [lineStart, ← hdrop, List.take_left]

/-- As many lines start up to an offset as there are up to the one that the offset is on. -/
lemma length_takeWhile_startsFrom (base offset : ℕ) {lines : List (List Char)} (h : lines ≠ []) :
    ((startsFrom base lines).takeWhile (· ≤ base + offset)).length =
      Rope.lineContaining offset lines + 1 := by
  fun_induction Rope.lineContaining offset lines generalizing base with
  | case1 => exact absurd rfl h
  | case2 => simp [startsFrom]
  | case3 offset line next rest hlt => simp [startsFrom, hlt]
  | case4 offset line next rest hlt ih =>
    have hnext := ih (base + line.length) (List.cons_ne_nil next rest)
    rw [show base + line.length + (offset - line.length) = base + offset by omega] at hnext
    rw [startsFrom, List.takeWhile_cons_of_pos (by simp), List.length_cons, hnext]

/-- The line of an offset that lies in a line, or at the end of the last line. -/
lemma Rope.lineContaining_append (front : List (List Char)) {whole : List Char}
    {behind : List (List Char)} {column : ℕ}
    (hcolumn : column < whole.length ∨ behind = [] ∧ column ≤ whole.length) :
    Rope.lineContaining (front.flatten.length + column) (front ++ whole :: behind) =
      front.length := by
  induction front with
  | nil =>
    cases behind with
    | nil => rfl
    | cons next behind =>
      have hlt : column < whole.length := by simpa using hcolumn
      simp [Rope.lineContaining, hlt]
  | cons line front ih =>
    have hne : front ++ whole :: behind ≠ [] := by simp
    obtain ⟨next, rest, hrest⟩ := List.exists_cons_of_ne_nil hne
    have hfar : ¬ (line :: front).flatten.length + column < line.length := by
      rw [List.flatten_cons, List.length_append]
      omega
    have hbehind : (line :: front).flatten.length + column - line.length =
        front.flatten.length + column := by
      rw [List.flatten_cons, List.length_append]
      omega
    rw [List.cons_append, hrest, Rope.lineContaining, if_neg hfar, hbehind, ← hrest, ih,
      List.length_cons]

/-! ## Stores -/

/-- A store whose documents answer questions about lines as their characters tell. -/
class LawfulLines (D : Type) [Document D] : Prop where
  /-- A document has the text that it was made of. -/
  chars_ofText (text : String) : Document.chars (Document.ofText text : D) = text.toList
  /-- There are as many lines as the text falls into. -/
  lineCount_eq (document : D) :
    Document.lineCount document = (splitLines (Document.chars document)).length
  lineSpan_eq (document : D) (line : ℕ) :
    Document.lineSpan document line = spanOf (Document.chars document) line
  lineAt_eq (document : D) (offset : ℕ) :
    Document.lineAt document offset = lineOf (Document.chars document) offset
  slice_eq (document : D) (start stop : ℕ) :
    Document.slice document start stop =
      String.ofList (((Document.chars document).take stop).drop start)

/-- A slice whose ends are clamped to the text. -/
lemma take_drop_clamped (text : List Char) (start stop : ℕ) :
    (text.drop (min start text.length)).take (min stop text.length - min start text.length) =
      (text.take stop).drop start := by
  rw [← List.drop_eq_drop_min, List.drop_take, List.take_eq_take_iff, List.length_drop]
  omega

instance : LawfulLines FlatText where
  chars_ofText _ := rfl
  lineCount_eq document := by
    simp [Document.lineCount, lineStarts_eq, Document.chars, Document.content, FlatText.chars]
  lineSpan_eq document line := by
    change document.lineSpan line = spanOf document.chars line
    rcases Nat.lt_or_ge line (splitLines document.chars).length with hlt | hge
    · have hwhole := List.getElem?_eq_getElem hlt
      have hstart : (startsFrom 0 (splitLines document.chars))[line]?.getD 0 =
          lineStart document.chars line := by
        rw [getElem?_startsFrom 0 hlt, Option.getD_some, Nat.zero_add, lineStart]
      have hnext : (startsFrom 0 (splitLines document.chars))[line + 1]?.getD
          document.chars.length = lineStart document.chars (line + 1) := by
        rcases Nat.lt_or_ge (line + 1) (splitLines document.chars).length with hnext | hlast
        · rw [getElem?_startsFrom 0 hnext, Option.getD_some, Nat.zero_add, lineStart]
        · obtain hlast : line + 1 = (splitLines document.chars).length := by omega
          rw [List.getElem?_eq_none (by simp [hlast]), Option.getD_none, hlast, lineStart_length]
      rw [spanOf_eq_ok hwhole, FlatText.lineSpan]
      simp only [lineStarts_eq, checkLine, length_startsFrom, hlt, if_true, hstart, hnext,
        lineStart_succ hwhole, Nat.add_sub_cancel_left, drop_take_line hwhole, length_lineContent]
      rfl
    · rw [spanOf_eq_error hge, FlatText.lineSpan]
      simp only [lineStarts_eq, checkLine, length_startsFrom, Nat.not_lt.mpr hge, if_false]
      rfl
  lineAt_eq document offset := by
    change document.lineAt offset = lineOf document.chars offset
    have hcount := length_takeWhile_startsFrom 0 offset (splitLines_ne_nil document.chars)
    rw [Nat.zero_add] at hcount
    rw [FlatText.lineAt, lineOf, checkOffset, lineStarts_eq, hcount]
    split_ifs <;> rfl
  slice_eq document start stop := by
    change document.slice start stop = String.ofList ((document.chars.take stop).drop start)
    rw [FlatText.slice, take_drop_clamped]

namespace Rope

lemma lines_eq (rope : Rope) : rope.lines = splitLines rope.chars := rope.splitLines_flatten.symm

lemma document_chars (rope : Rope) : Document.chars rope = rope.chars := by
  simp [Document.chars, Document.content]

end Rope

instance : LawfulLines Rope where
  chars_ofText text := by simp [Document.chars, Document.content, Document.ofText]
  lineCount_eq rope := by
    simp [Document.lineCount, Rope.document_chars, ← Rope.lines_eq]
  lineSpan_eq rope line := by
    change rope.lineSpan line = _
    rw [Rope.document_chars, spanOf, lineStart, ← Rope.lines_eq, Rope.length_flatten,
      Rope.lineSpan, checkLine]
    rcases Nat.lt_or_ge line rope.lines.length with hlt | hge
    · simp only [hlt, if_true, List.getElem?_eq_getElem hlt, Option.getD_some, breakLength_drop,
        length_lineContent]
      rfl
    · simp only [Nat.not_lt.mpr hge, if_false, List.getElem?_eq_none hge]
      rfl
  lineAt_eq rope offset := by
    change rope.lineAt offset = _
    rw [Rope.document_chars, Rope.lineAt, lineOf, checkOffset, Rope.length_chars, ← Rope.lines_eq]
    split_ifs <;> rfl
  slice_eq rope start stop := by
    change rope.slice start stop = _
    rw [Rope.document_chars, Rope.slice, ← take_drop_clamped, Rope.length_chars]
    split_ifs with hcut
    · rfl
    · rw [Nat.sub_eq_zero_of_le (Nat.not_lt.mp hcut), List.take_zero]

namespace Document

variable {D : Type} [Document D] [LawfulLines D]

/-- **The text of a line** is the line without its break. -/
lemma line?_eq (document : D) (line : ℕ) :
    line? document line =
      (splitLines (chars document))[line]?.map fun whole => String.ofList (lineContent whole) := by
  rcases Nat.lt_or_ge line (splitLines (chars document)).length with hlt | hge
  · have hwhole := List.getElem?_eq_getElem hlt
    have hslice := congrArg (List.take (lineContent (splitLines (chars document))[line]).length)
      (drop_take_line hwhole)
    rw [List.take_take, Nat.min_eq_left (by simp [lineContent])] at hslice
    rw [line?, LawfulLines.lineSpan_eq, spanOf_eq_ok hwhole, hwhole, Option.map_some]
    simp only [LawfulLines.slice_eq, LineSpan.stop, List.drop_take, Nat.add_sub_cancel_left, hslice]
    rw [length_lineContent, lineContent]
  · rw [line?, LawfulLines.lineSpan_eq, spanOf_eq_error hge, List.getElem?_eq_none hge,
      Option.map_none]

/-- The texts of all lines of a document, in order. -/
def lineTexts {D : Type} [Document D] (document : D) : List String :=
  (List.range (lineCount document)).filterMap (line? document)

/-- The entries of a list, looked up one after the other. -/
lemma filterMap_getElem?_range {α : Type} (xs : List α) :
    (List.range xs.length).filterMap (fun index => xs[index]?) = xs := by
  induction xs with
  | nil => rfl
  | cons x xs ih =>
    rw [List.length_cons, List.range_succ_eq_map, List.filterMap_cons, List.filterMap_map]
    simpa using ih

/-- **The texts of the lines** are the lines without their breaks. -/
lemma lineTexts_eq (document : D) :
    lineTexts document =
      (splitLines (chars document)).map fun whole => String.ofList (lineContent whole) := by
  rw [lineTexts, LawfulLines.lineCount_eq,
    ← filterMap_getElem?_range ((splitLines (chars document)).map _), List.length_map]
  apply List.filterMap_congr
  intro line _
  rw [line?_eq, List.getElem?_map]

/-- **The position of an offset** in a line, or at the end of the last line. -/
lemma offsetToPosition_eq [LawfulDocument D] {document : D} {front behind : List (List Char)}
    {whole : List Char} (h : splitLines (chars document) = front ++ whole :: behind) {column : ℕ}
    (hcolumn : column < whole.length ∨ behind = [] ∧ column ≤ whole.length) :
    offsetToPosition document (front.flatten.length + column) = ⟨front.length, column⟩ := by
  have htext : chars document = front.flatten ++ (whole ++ behind.flatten) := by
    rw [← flatten_splitLines (chars document), h, List.flatten_append, List.flatten_cons]
  have hlength : front.flatten.length + column ≤ (chars document).length := by
    rw [htext, List.length_append, List.length_append]
    omega
  have hline : lineOf (chars document) (front.flatten.length + column) = .ok front.length := by
    rw [lineOf, if_pos hlength, h, Rope.lineContaining_append front hcolumn]
  have hwhole : (splitLines (chars document))[front.length]? = some whole := by simp [h]
  have hspan : spanOf (chars document) front.length =
      .ok ⟨front.flatten.length, (lineContent whole).length⟩ := by
    rw [spanOf_eq_ok hwhole, lineStart, h, List.take_left]
  rw [offsetToPosition, LawfulDocument.length_eq, Nat.min_eq_left hlength]
  simp only [LawfulLines.lineAt_eq, hline, LawfulLines.lineSpan_eq, hspan, Nat.add_sub_cancel_left]

end Document

end EditBatch
