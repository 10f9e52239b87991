import EditBatch.Proofs.Compilation
import EditBatch.Proofs.LineGeometry
set_option autoImplicit false

/-!
# What the deletion of a line records

The deletion of a line is recorded as one deletion of a range, whichever way the line is named: by
its number, or by any offset from its start up to the start of the next line. The range holds the
break in front of the line and the line, or the first line and the break behind it.

## Main definitions

* `EditBatch.Document.goneText` — the text that goes with a line.
* `EditBatch.Document.lineEnd` — where a line stops.
* `EditBatch.Document.OnLine` — the offsets of a line, its break included.

## Main results

* `EditBatch.take_drop_deletedRange` — what stands in the range of a line.
* `EditBatch.Document.lineAt_of_onLine` — the line of an offset.
* `EditBatch.Document.deleteLine_recorded` — what is recorded, and what it removes.
-/

namespace EditBatch

open Document

/-! ## The text in the range of a line -/

/-- What stands between two places of a text is cut in two at each place between them. -/
lemma take_drop_append (text : List Char) {first middle last : ℕ} (hfirst : first ≤ middle)
    (hlast : middle ≤ last) :
    (text.take last).drop first =
      (text.take middle).drop first ++ (text.take last).drop middle := by
  have hcut := List.take_append_drop (middle - first) ((text.take last).drop first)
  rw [List.drop_drop, Nat.add_sub_cancel' hfirst, List.take_drop, Nat.add_sub_cancel' hfirst,
    List.take_take, Nat.min_eq_left hlast] at hcut
  exact hcut.symm

/-- The content of a line of a text, and its break. -/
def wholeLine (text : List Char) (line : ℕ) : List Char := (splitLines text)[line]?.getD []

/-- **What stands in the range of a line**: the break in front of it and its content, or the content
of the first line and the break behind it. -/
lemma take_drop_deletedRange {text : List Char} {line : ℕ} (h : line < (splitLines text).length) :
    (text.take (deletedRange text line).2).drop (deletedRange text line).1 =
      if 0 < line then
        lineBreak (wholeLine text (line - 1)) ++ lineContent (wholeLine text line)
      else lineContent (wholeLine text 0) ++ lineBreak (wholeLine text 0) := by
  cases line with
  | zero =>
    have hstop : lineStop text 0 ≤ lineStart text 1 := lineStop_le_lineStart_succ h
    have hcontent : (text.take (lineStop text 0)).drop 0 = lineContent (wholeLine text 0) :=
      take_drop_lineStop h
    have hbreak : (text.take (lineStart text 1)).drop (lineStop text 0) =
        lineBreak (wholeLine text 0) := take_drop_lineStart_succ h
    rw [if_neg (Nat.lt_irrefl 0), ← hcontent, ← hbreak,
      ← take_drop_append text (Nat.zero_le _) hstop]
    by_cases hnext : 1 < (splitLines text).length
    · rw [deletedRange_zero hnext]
    · -- the only line ends with the text
      have hlength : 1 = (splitLines text).length := by omega
      have hend : lineStart text 1 = lineStop text 0 := by
        rw [lineStop_last hlength, hlength, lineStart_length]
      rw [deletedRange, if_neg (Nat.lt_irrefl 0), if_neg hnext, hend]
  | succ previous =>
    have hprevious : previous < (splitLines text).length := by omega
    rw [if_pos (Nat.succ_pos previous), deletedRange_succ, Nat.add_sub_cancel, wholeLine, wholeLine,
      ← take_drop_lineStart_succ hprevious, ← take_drop_lineStop h]
    exact take_drop_append text (lineStop_le_lineStart_succ hprevious) (lineStart_le_lineStop _ _)

namespace Document

/-! ## Lines and offsets -/

section Lines

variable {D : Type} [Document D] (document : D) (line : ℕ)

/-- The text that goes with a line: the break in front of it and its own text, or for the first line
its text and the break behind it. -/
def goneText : String :=
  if 0 < line then breakBehind document (line - 1) ++ (line? document line).getD ""
  else (line? document 0).getD "" ++ breakBehind document 0

/-- Where a line stops, its break left out. -/
def lineEnd : ℕ :=
  match lineSpan document line with
  | .ok span => span.stop
  | .error _ => 0

/-- Whether an offset is on a line: not in front of its start, and in front of the start of the next
line, or not behind the end of the document if there is none. -/
def OnLine (offset : ℕ) : Prop :=
  (∃ span, lineSpan document line = .ok span ∧ span.start ≤ offset) ∧
    (∀ next, lineSpan document (line + 1) = .ok next → offset < next.start) ∧
    offset ≤ length document

end Lines

variable {D : Type} [Document D] [LawfulLines D] {document : D} {line : ℕ}

lemma lineEnd_eq (h : line < (splitLines (chars document)).length) :
    lineEnd document line = lineStop (chars document) line := by
  obtain ⟨span, hspan⟩ := exists_lineSpan h
  rw [lineEnd, hspan]
  exact (span_of_lineSpan hspan).2.2

/-- The text that goes with a line is what stands in its range. -/
lemma toList_goneText (h : line < (splitLines (chars document)).length) :
    (goneText document line).toList =
      ((chars document).take (deletedRange (chars document) line).2).drop
        (deletedRange (chars document) line).1 := by
  have hline : ∀ number < (splitLines (chars document)).length,
      ((line? document number).getD "").toList =
        lineContent (wholeLine (chars document) number) := by
    intro number hnumber
    rw [line?_eq, wholeLine, List.getElem?_eq_getElem hnumber, Option.map_some, Option.getD_some,
      Option.getD_some, String.toList_ofList]
  have hbreak : ∀ number < (splitLines (chars document)).length,
      (breakBehind document number).toList = lineBreak (wholeLine (chars document) number) := by
    intro number hnumber
    rw [breakBehind_eq hnumber, String.toList_ofList, wholeLine]
  rw [take_drop_deletedRange h, goneText]
  split_ifs with hpositive
  · rw [String.toList_append, hline line h, hbreak (line - 1) (by omega)]
  · rw [String.toList_append, hline 0 (by omega), hbreak 0 (by omega)]

/-- **The line of an offset** is the one that the offset is on. -/
lemma lineAt_of_onLine [LawfulDocument D] {offset : ℕ} (h : OnLine document line offset) :
    lineAt document offset = .ok line := by
  obtain ⟨⟨span, hspan, hstart⟩, hnext, hlength⟩ := h
  obtain ⟨hlt, hfirst, -⟩ := span_of_lineSpan hspan
  rw [LawfulDocument.length_eq] at hlength
  rw [hfirst] at hstart
  obtain ⟨front, whole, behind, hlines, rfl⟩ := exists_splitLines_eq hlt
  have hwhole : (splitLines (chars document))[front.length]? = some whole := by simp [hlines]
  have hfront : lineStart (chars document) front.length = front.flatten.length := by
    rw [lineStart, hlines, List.take_left]
  have hsucc := lineStart_succ hwhole
  have hcolumn : offset - front.flatten.length < whole.length ∨
      behind = [] ∧ offset - front.flatten.length ≤ whole.length := by
    rcases behind with _ | ⟨next, behind⟩
    · have hlast : front.length + 1 = (splitLines (chars document)).length := by simp [hlines]
      rw [hlast, lineStart_length] at hsucc
      exact .inr ⟨rfl, by omega⟩
    · obtain ⟨span, hspan⟩ := exists_lineSpan
        (show front.length + 1 < (splitLines (chars document)).length by simp [hlines])
      have hbefore := hnext span hspan
      rw [(span_of_lineSpan hspan).2.1] at hbefore
      exact .inl (by omega)
  have hcontaining := Rope.lineContaining_append front hcolumn
  rw [Nat.add_sub_cancel' (by omega), ← hlines] at hcontaining
  rw [LawfulLines.lineAt_eq, lineOf, if_pos hlength, hcontaining]

end Document

/-- Every offset is on a line that there is. -/
lemma Rope.lineContaining_lt (offset : ℕ) {lines : List (List Char)} (h : lines ≠ []) :
    lineContaining offset lines < lines.length := by
  fun_induction lineContaining offset lines with
  | case1 => exact absurd rfl h
  | case2 => simp
  | case3 => simp
  | case4 offset line next rest hlt ih =>
    have := ih (List.cons_ne_nil next rest)
    simp only [List.length_cons] at this ⊢
    omega

/-! ## Recordings -/

namespace Recording

variable {D : Type} [Document D] {document : D} {offset line : ℕ}

/-- A line that is named by an offset is deleted as if it were named by its number. -/
lemma deleteLineAt_eq (h : lineAt document offset = .ok line) :
    deleteLineAt document offset = deleteLine document line := by
  rw [deleteLineAt, h]
  rfl

variable [LawfulLines D]

/-- A line that there is not is refused. -/
lemma refuses_deleteLine (h : lineCount document ≤ line) :
    Refuses (deleteLine document line) (.invalidLine line (lineCount document)) := by
  rw [LawfulLines.lineCount_eq] at h ⊢
  intro batch
  rw [deleteLine, LawfulLines.lineSpan_eq, spanOf_eq_error h]
  rfl

variable [LawfulDocument D]

/-- An offset behind the document is refused, and no other is. -/
lemma refuses_deleteLineAt_iff {cause : EditError} :
    Refuses (deleteLineAt document offset) cause ↔
      length document < offset ∧ cause = .invalidOffset offset 0 (length document) := by
  rw [LawfulDocument.length_eq]
  rcases Nat.lt_or_ge (chars document).length offset with hbehind | hinside
  · have hrefused : Refuses (deleteLineAt document offset)
        (.invalidOffset offset 0 (chars document).length) := by
      intro batch
      rw [deleteLineAt, LawfulLines.lineAt_eq, lineOf, if_neg (Nat.not_le.mpr hbehind)]
      rfl
    refine ⟨fun h => ⟨hbehind, h.unique hrefused⟩, ?_⟩
    rintro ⟨-, rfl⟩
    exact hrefused
  · have hline : lineAt document offset =
        .ok (Rope.lineContaining offset (splitLines (chars document))) := by
      rw [LawfulLines.lineAt_eq, lineOf, if_pos hinside]
    have hlt := Rope.lineContaining_lt offset (splitLines_ne_nil (chars document))
    rw [← LawfulLines.lineCount_eq] at hlt
    refine ⟨fun h => ?_, fun h => absurd h.1 (Nat.not_lt.mpr hinside)⟩
    rw [deleteLineAt_eq hline] at h
    exact absurd h (records_deleteLine hlt).not_refuses

end Recording

/-! ## What is recorded and removed -/

namespace Document

variable {D : Type} [Document D] [LawfulDocument D] [LawfulLines D]

/-- **What the deletion of a line records and removes**, in a document that offsets reach. For every
line that there is, one deletion is recorded. Made in the document, it takes out the break in front
of the line and the line, or the first line and the break behind it, and leaves the caret at the end
of the line in front, or at the start. It is made in every document of the same length. The same
deletion is recorded for every offset on the line. Other lines are refused, and so are the offsets
behind the document and no others; then nothing is recorded.

**Proof sketch.** The range recorded for a line (`records_deleteLine`) is in order and inside the
document (`deletedRange_le`), and what stands in it is the break and the line
(`toList_goneText`). -/
theorem deleteLine_recorded (document : D) (room : length document ≤ Offset.greatest.toNat) :
    (∀ line < lineCount document, ∃ start stop : Offset,
      Recording.Records (Recording.deleteLine document line) [.deletion start stop] ∧
      (∃ front behind final, chars document = front ++ (goneText document line).toList ++ behind ∧
        Batch.apply ⟨[.deletion start stop]⟩ document = (final, .ok (some start)) ∧
        chars final = front ++ behind ∧ start.toNat = front.length ∧
        start.toNat = if 0 < line then lineEnd document (line - 1) else 0) ∧
      (∀ (E : Type) [Document E] [LawfulDocument E] (other : E),
        length other = length document →
          ∃ final caret, Batch.apply ⟨[.deletion start stop]⟩ other = (final, .ok caret)) ∧
      ∀ offset, OnLine document line offset →
        Recording.Records (Recording.deleteLineAt document offset) [.deletion start stop]) ∧
    (∀ line ≥ lineCount document, Recording.Refuses (Recording.deleteLine document line)
      (.invalidLine line (lineCount document))) ∧
    ∀ offset cause, Recording.Refuses (Recording.deleteLineAt document offset) cause ↔
      length document < offset ∧ cause = .invalidOffset offset 0 (length document) := by
  refine ⟨fun line h => ?_, fun line h => Recording.refuses_deleteLine h,
    fun offset cause => Recording.refuses_deleteLineAt_iff⟩
  have hrecords := Recording.records_deleteLine h
  rw [LawfulDocument.length_eq] at room
  rw [LawfulLines.lineCount_eq] at h
  obtain ⟨order, inside⟩ := deletedRange_le h
  obtain ⟨final, happly, hchars⟩ := Batch.exists_apply_deletion document order inside room
  have hstart := Offset.toNat_ofNat_of_le (order.trans (inside.trans room))
  refine ⟨_, _, hrecords, ⟨_, _, final, ?_, happly, hchars, ?_, ?_⟩, ?_, ?_⟩
  · have hfront : ((chars document).take (deletedRange (chars document) line).1) =
        ((chars document).take (deletedRange (chars document) line).1).drop 0 := rfl
    rw [toList_goneText h, hfront, ← take_drop_append _ (Nat.zero_le _) order, List.drop_zero,
      List.take_append_drop]
  · rw [hstart, List.length_take_of_le (order.trans inside)]
  · rw [hstart]
    cases line with
    | zero =>
      rw [if_neg (Nat.lt_irrefl 0), deletedRange, if_neg (Nat.lt_irrefl 0)]
      split_ifs <;> rfl
    | succ previous =>
      rw [if_pos (Nat.succ_pos previous), deletedRange_succ, Nat.add_sub_cancel,
        lineEnd_eq (by omega)]
  · intro E _ _ other hlength
    rw [LawfulDocument.length_eq, LawfulDocument.length_eq] at hlength
    obtain ⟨left, hleft, -⟩ := Batch.exists_apply_deletion other order
      (by rwa [hlength]) (by rwa [hlength])
    exact ⟨left, _, hleft⟩
  · intro offset hline
    rw [Recording.deleteLineAt_eq (lineAt_of_onLine hline)]
    exact hrecords

/-- The third of four lines ends in a carriage return and a line feed, and the line in front of it
in a line separator, which goes with it. An offset inside of its break is on it. -/
theorem deleteLine_recorded_crlf :
    let document : FlatText := ⟨"a\n\u2028bc\r\nd"⟩
    length document ≤ Offset.greatest.toNat ∧ 2 < lineCount document ∧ OnLine document 2 6 ∧
    ∃ start stop : Offset, ∃ final,
      Recording.Records (Recording.deleteLine document 2) [.deletion start stop] ∧
      Recording.Records (Recording.deleteLineAt document 6) [.deletion start stop] ∧
      Batch.apply ⟨[.deletion start stop]⟩ document = (final, .ok (some start)) ∧
      chars final = "a\n\r\nd".toList := by
  intro document
  have room : length document ≤ Offset.greatest.toNat := by decide
  have h : 2 < lineCount document := by decide
  have hline : OnLine document 2 6 := by
    refine ⟨⟨⟨3, 2⟩, by decide, by decide⟩, fun next hnext => ?_, by decide⟩
    have hspan : lineSpan document 3 = .ok ⟨7, 1⟩ := by decide
    cases hspan.symm.trans hnext
    decide
  obtain ⟨start, stop, hrecords, ⟨front, behind, final, hcut, happly, hchars, hlength, hstart⟩, -,
    hoffset⟩ := (deleteLine_recorded document room).1 2 h
  refine ⟨room, h, hline, start, stop, final, hrecords, hoffset 6 hline, happly, ?_⟩
  have hend : lineEnd document 1 = 2 := by decide
  have hgone : (goneText document 2).toList = "\u2028bc".toList := by decide
  have htext : chars document = "a\n".toList ++ ("\u2028bc".toList ++ "\r\nd".toList) := by decide
  rw [if_pos (by decide), hend, hlength] at hstart
  rw [hgone, htext, List.append_assoc] at hcut
  obtain ⟨rfl, hbehind⟩ := List.append_inj hcut (by rw [hstart]; rfl)
  rw [hchars, ← List.append_cancel_left hbehind]
  decide

end Document

end EditBatch
