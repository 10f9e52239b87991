import EditBatch.Proofs.JoinedLines
import EditBatch.Proofs.LawfulLines
import EditBatch.Proofs.Progress
import EditBatch.Proofs.Recording
import Mathlib.Data.List.InsertIdx
import Mathlib.Order.Basic
set_option autoImplicit false

/-!
# Deleting a line

The deletion of a line takes out the line and the break in front of it, or for the first line the
break behind it. The other lines stay what they are, unless a carriage return comes to stand in
front of a line feed.

## Main definitions

* `EditBatch.lineStop` — where a line stops, its break left out.
* `EditBatch.deletedRange`, `EditBatch.withoutLine` — what the deletion of a line takes out, and
  what it leaves.
* `EditBatch.BreaksMeet` — whether a carriage return comes to stand in front of a line feed.

## Main results

* `EditBatch.Recording.records_deleteLine` — the deletion of a line is recorded as one range.
* `EditBatch.map_lineContent_withoutLine` — the lines of a text without one of them.
* `EditBatch.Document.apply_deleteLine` — the deletion of a line leaves the other lines.
* `EditBatch.Document.apply_deleteLine_of_breaksMeet` — if breaks meet, one more line goes.
-/

namespace EditBatch

open Document

/-! ## The range of a line -/

/-- Where a line of a text stops, its break left out. -/
def lineStop (text : List Char) (line : ℕ) : ℕ :=
  lineStart text line + (lineContent ((splitLines text)[line]?.getD [])).length

/-- What the deletion of a line takes out: the line and the break in front of it, or for the first
line the break behind it, if there is one. -/
def deletedRange (text : List Char) (line : ℕ) : ℕ × ℕ :=
  if 0 < line then (lineStop text (line - 1), lineStop text line)
  else if 1 < (splitLines text).length then (0, lineStart text 1)
  else (0, lineStop text 0)

lemma deletedRange_succ (text : List Char) (line : ℕ) :
    deletedRange text (line + 1) = (lineStop text line, lineStop text (line + 1)) :=
  if_pos (Nat.succ_pos line)

lemma deletedRange_zero {text : List Char} (several : 1 < (splitLines text).length) :
    deletedRange text 0 = (0, lineStart text 1) := by
  rw [deletedRange, if_neg (Nat.lt_irrefl 0), if_pos several]

lemma lineStop_eq {text whole : List Char} {line : ℕ} (h : (splitLines text)[line]? = some whole) :
    lineStop text line = lineStart text line + (lineContent whole).length := by
  rw [lineStop, h, Option.getD_some]

lemma lineStart_le_lineStop (text : List Char) (line : ℕ) :
    lineStart text line ≤ lineStop text line :=
  Nat.le_add_right _ _

lemma lineStop_le_lineStart_succ {text : List Char} {line : ℕ}
    (h : line < (splitLines text).length) : lineStop text line ≤ lineStart text (line + 1) := by
  have hwhole := List.getElem?_eq_getElem h
  rw [lineStop_eq hwhole, lineStart_succ hwhole, length_lineContent]
  omega

/-- More pieces of a text are at least as long together. -/
lemma length_flatten_take_mono (pieces : List (List Char)) {number later : ℕ} (h : number ≤ later) :
    (pieces.take number).flatten.length ≤ (pieces.take later).flatten.length := by
  have hcut := congrArg List.flatten (List.take_append_drop number (pieces.take later))
  rw [List.take_take, Nat.min_eq_left h, List.flatten_append] at hcut
  rw [← hcut, List.length_append]
  exact Nat.le_add_right _ _

lemma lineStart_mono (text : List Char) {line later : ℕ} (h : line ≤ later) :
    lineStart text line ≤ lineStart text later :=
  length_flatten_take_mono (splitLines text) h

lemma lineStop_le_length {text : List Char} {line : ℕ} (h : line < (splitLines text).length) :
    lineStop text line ≤ text.length := by
  rw [← lineStart_length]
  exact (lineStop_le_lineStart_succ h).trans (lineStart_mono text h)

/-- The range of a line is in order and inside the text. -/
lemma deletedRange_le {text : List Char} {line : ℕ} (h : line < (splitLines text).length) :
    (deletedRange text line).1 ≤ (deletedRange text line).2 ∧
      (deletedRange text line).2 ≤ text.length := by
  cases line with
  | zero =>
    rw [deletedRange, if_neg (Nat.lt_irrefl 0)]
    split_ifs with hnext
    · refine ⟨Nat.zero_le _, ?_⟩
      rw [← lineStart_length]
      exact lineStart_mono text hnext.le
    · exact ⟨Nat.zero_le _, lineStop_le_length h⟩
  | succ previous =>
    rw [deletedRange_succ]
    have hprevious := lineStop_le_lineStart_succ (show previous < (splitLines text).length by omega)
    exact ⟨hprevious.trans (lineStart_le_lineStop _ _), lineStop_le_length h⟩

/-- The edit that deletes a line of a text. -/
def lineDeletion (text : List Char) (line : ℕ) : Edit :=
  .deletion (.ofNat (deletedRange text line).1) (.ofNat (deletedRange text line).2)

section Record

variable {D : Type} [Document D] [LawfulLines D]

/-- **The deletion of a line is recorded** as one range, for every line that there is. -/
lemma Recording.records_deleteLine {document : D} {line : ℕ} (h : line < lineCount document) :
    Records (deleteLine document line) [lineDeletion (chars document) line] := by
  have hspan : ∀ number < (splitLines (chars document)).length,
      lineSpan document number = .ok ⟨lineStart (chars document) number,
        (lineContent ((splitLines (chars document))[number]?.getD [])).length⟩ := by
    intro number hnumber
    have hwhole := List.getElem?_eq_getElem hnumber
    rw [LawfulLines.lineSpan_eq, spanOf_eq_ok hwhole, hwhole, Option.getD_some]
  have hrequire : ∀ {α : Type} (value : α), require (.ok value) = pure value := fun _ => rfl
  rw [LawfulLines.lineCount_eq] at h
  have hordered := records_delete (Offset.ofNat_le_ofNat (deletedRange_le h).1)
  rw [deleteLine, hspan line h, hrequire, pure_bind, lineDeletion]
  cases line with
  | zero =>
    rw [if_neg (Nat.lt_irrefl 0), LawfulLines.lineCount_eq]
    unfold deletedRange at hordered ⊢
    rw [if_neg (Nat.lt_irrefl 0)] at hordered ⊢
    split_ifs at hordered ⊢ with hnext
    · rw [hspan (0 + 1) hnext, hrequire, pure_bind]
      exact hordered
    · exact hordered
  | succ previous =>
    rw [if_pos (Nat.succ_pos previous), Nat.add_sub_cancel, hspan previous (by omega), hrequire,
      pure_bind]
    rw [deletedRange_succ] at hordered ⊢
    exact hordered

end Record

/-! ## The text that is left -/

/-- Whether the deletion of a line puts a carriage return in front of a line feed. -/
def BreaksMeet (text : List Char) (line : ℕ) : Prop :=
  Meet (text.take (deletedRange text line).1) (text.drop (deletedRange text line).2)

instance (text : List Char) (line : ℕ) : Decidable (BreaksMeet text line) := by
  unfold BreaksMeet Meet
  infer_instance

section Text

variable {text whole : List Char} {front behind : List (List Char)}

/-- A text is cut in two at the stop of each of its lines. -/
lemma cut_lineStop (h : splitLines text = front ++ whole :: behind) :
    text.take (lineStop text front.length) = front.flatten ++ lineContent whole ∧
      text.drop (lineStop text front.length) = lineBreak whole ++ behind.flatten := by
  have hcut :
      (front.flatten ++ lineContent whole) ++ (lineBreak whole ++ behind.flatten) = text := by
    rw [List.append_assoc, ← List.append_assoc (lineContent whole), lineContent_append_lineBreak,
      ← flatten_splitLines text, h, List.flatten_append, List.flatten_cons]
  have hwhole : (splitLines text)[front.length]? = some whole := by simp [h]
  have hstop : (front.flatten ++ lineContent whole).length = lineStop text front.length := by
    rw [lineStop_eq hwhole, lineStart, h, List.take_left, List.length_append]
  have htake := congrArg (List.take (lineStop text front.length)) hcut
  have hdrop := congrArg (List.drop (lineStop text front.length)) hcut
  rw [List.take_left' hstop] at htake
  rw [List.drop_left' hstop] at hdrop
  exact ⟨htake.symm, hdrop.symm⟩

/-- The text without what the deletion of a line takes out. -/
def withoutLine (text : List Char) (line : ℕ) : List Char :=
  text.take (deletedRange text line).1 ++ text.drop (deletedRange text line).2

/-- Without its first line a text has the other lines. -/
lemma splitLines_withoutLine_zero (h : splitLines text = whole :: behind) (hbehind : behind ≠ []) :
    splitLines (withoutLine text 0) = behind := by
  have hnext : 1 < (splitLines text).length := by
    rw [h, List.length_cons]
    have := List.length_pos_iff.mpr hbehind
    omega
  have hstart : lineStart text 1 = whole.length := by
    rw [lineStart, h, List.take_succ_cons, List.take_zero, List.flatten_singleton]
  have hdrop := congrArg (List.drop whole.length) (flatten_splitLines text)
  rw [h, List.flatten_cons, List.drop_left] at hdrop
  have hlines := (AreLines.of_splitLines_eq h).tail hbehind
  rw [withoutLine, deletedRange_zero hnext, hstart, List.take_zero, List.nil_append, ← hdrop,
    hlines.splitLines_flatten]

/-- The deletion of another line cuts between the content and the break of two lines. -/
lemma cut_deletedRange {previous : List Char}
    (h : splitLines text = front ++ previous :: whole :: behind) :
    text.take (lineStop text front.length) = front.flatten ++ lineContent previous ∧
      text.drop (lineStop text (front.length + 1)) = lineBreak whole ++ behind.flatten := by
  have hsecond : splitLines text = (front ++ [previous]) ++ whole :: behind := by simpa using h
  have hwhole := (cut_lineStop hsecond).2
  rw [List.length_append, List.length_singleton] at hwhole
  exact ⟨(cut_lineStop h).1, hwhole⟩

/-- Without another line a text has the line in front of it joined with the break behind it. -/
lemma splitLines_withoutLine_succ {previous : List Char}
    (h : splitLines text = front ++ previous :: whole :: behind)
    (apart : ¬ BreaksMeet text (front.length + 1)) :
    splitLines (withoutLine text (front.length + 1)) =
      front ++ (lineContent previous ++ lineBreak whole) :: behind := by
  obtain ⟨hprevious, hwhole⟩ := cut_deletedRange h
  rw [BreaksMeet, deletedRange_succ, hprevious, hwhole] at apart
  rw [withoutLine, deletedRange_succ, hprevious, hwhole,
    ← ((AreLines.of_splitLines_eq h).joined apart).splitLines_flatten]
  simp

variable {line : ℕ}

/-- A line that is not the last one has a line behind it. -/
lemma splitLines_eq_append_pair (h : line + 1 < (splitLines text).length) :
    ∃ front first second behind,
      splitLines text = front ++ first :: second :: behind ∧ front.length = line := by
  refine ⟨(splitLines text).take line, (splitLines text)[line], (splitLines text)[line + 1],
    (splitLines text).drop (line + 1 + 1), ?_, List.length_take_of_le (by omega)⟩
  rw [← List.drop_eq_getElem_cons h, ← List.drop_eq_getElem_cons (by omega),
    List.take_append_drop]

/-- **The other lines keep their content.** -/
lemma map_lineContent_withoutLine (several : 1 < (splitLines text).length)
    (h : line < (splitLines text).length) (apart : ¬ BreaksMeet text line) :
    (splitLines (withoutLine text line)).map lineContent =
      ((splitLines text).map lineContent).eraseIdx line := by
  cases line with
  | zero =>
    obtain ⟨front, first, second, behind, hlines, hfront⟩ := splitLines_eq_append_pair several
    obtain rfl := List.length_eq_zero_iff.mp hfront
    rw [List.nil_append] at hlines
    rw [splitLines_withoutLine_zero hlines (List.cons_ne_nil second behind), hlines]
    rfl
  | succ previous =>
    obtain ⟨front, first, second, behind, hlines, rfl⟩ := splitLines_eq_append_pair h
    have hjoin : lineContent (lineContent first ++ lineBreak second) = lineContent first :=
      (AreLines.of_splitLines_eq hlines).of_append.join.2
    rw [splitLines_withoutLine_succ hlines apart, hlines, List.map_append, List.map_cons, hjoin,
      List.map_append, List.eraseIdx_append_of_length_le (by simp)]
    simp

/-- The deletion of a line starts at the end of the line in front, or at the start of the text. -/
lemma exists_line_at_deletedRange (several : 1 < (splitLines text).length)
    (h : line < (splitLines text).length) (apart : ¬ BreaksMeet text line) :
    ∃ front whole behind, ∃ column : ℕ,
      splitLines (withoutLine text line) = front ++ whole :: behind ∧
      (deletedRange text line).1 = front.flatten.length + column ∧
      (column < whole.length ∨ behind = [] ∧ column ≤ whole.length) ∧
      front.length = line - 1 ∧
      column =
        if line = 0 then 0 else (lineContent ((splitLines text)[line - 1]?.getD [])).length := by
  cases line with
  | zero =>
    obtain ⟨front, first, second, behind, hlines, hfront⟩ := splitLines_eq_append_pair several
    obtain rfl := List.length_eq_zero_iff.mp hfront
    rw [List.nil_append] at hlines
    refine ⟨[], second, behind, 0, ?_, ?_, ?_, rfl, rfl⟩
    · exact splitLines_withoutLine_zero hlines (List.cons_ne_nil second behind)
    · rw [deletedRange_zero several]
      rfl
    · rcases behind with _ | ⟨next, behind⟩
      · exact .inr ⟨rfl, Nat.zero_le _⟩
      · have hbehind := (AreLines.of_splitLines_eq hlines).tail (by simp)
        have := hbehind.length_lineContent_lt (by simp)
        exact .inl (by omega)
  | succ previous =>
    obtain ⟨front, first, second, behind, hlines, rfl⟩ := splitLines_eq_append_pair h
    have hget : (splitLines text)[front.length]? = some first := by simp [hlines]
    refine ⟨front, lineContent first ++ lineBreak second, behind, (lineContent first).length,
      splitLines_withoutLine_succ hlines apart, ?_, ?_, rfl, ?_⟩
    · rw [deletedRange_succ, lineStop_eq hget, lineStart, hlines, List.take_left]
    · rw [List.length_append]
      rcases behind with _ | ⟨next, behind⟩
      · exact .inr ⟨rfl, Nat.le_add_right _ _⟩
      · have hsecond := (AreLines.of_splitLines_eq hlines).of_append.tail (by simp)
        have := hsecond.length_lineContent_lt (by simp)
        have hbreak : (lineBreak second).length = second.length - (lineContent second).length :=
          List.length_drop
        exact .inl (by omega)
    · rw [if_neg (Nat.succ_ne_zero _), Nat.add_sub_cancel, hget, Option.getD_some]

/-- Where breaks meet, the line in front goes too, which is empty, and the break of the line in
front of that one goes on with the break of the line. -/
lemma exists_lines_of_breaksMeet (h : line < (splitLines text).length)
    (meet : BreaksMeet text line) :
    ∃ ahead content first second behind,
      splitLines text = ahead ++ (content ++ ['\r']) :: first :: second :: behind ∧
      Plain content ∧ lineContent first = [] ∧ line = ahead.length + 2 ∧
      splitLines (withoutLine text line) = ahead ++ (content ++ ['\r', '\n']) :: behind := by
  cases line with
  | zero =>
    -- nothing stands in front of the range
    rw [BreaksMeet, deletedRange, if_neg (Nat.lt_irrefl 0)] at meet
    split_ifs at meet <;> simp [Meet] at meet
  | succ previous =>
    obtain ⟨front, first, second, behind, hlines, rfl⟩ := splitLines_eq_append_pair h
    obtain ⟨hfirst, hsecond⟩ := cut_deletedRange hlines
    rw [BreaksMeet, deletedRange_succ, hfirst, hsecond] at meet
    obtain ⟨ahead, content, rfl, plain, hempty, hlf, hleft⟩ :=
      (AreLines.of_splitLines_eq hlines).exists_of_meet meet
    refine ⟨ahead, content, first, second, behind, by simpa using hlines, plain, hempty,
      by simp, ?_⟩
    rw [withoutLine, deletedRange_succ, hfirst, hsecond, ← hleft.splitLines_flatten, hempty, hlf]
    simp

end Text

/-! ## The document that is left -/

section Apply

variable {D : Type} [Document D] [LawfulDocument D]

/-- A batch of one deletion takes its range out. -/
lemma Batch.exists_apply_deletion (document : D) {start stop : ℕ} (order : start ≤ stop)
    (inside : stop ≤ (chars document).length)
    (room : (chars document).length ≤ Offset.greatest.toNat) :
    ∃ final, Batch.apply ⟨[.deletion (.ofNat start) (.ofNat stop)]⟩ document =
        (final, .ok (some (.ofNat start))) ∧
      chars final = (chars document).take start ++ (chars document).drop stop := by
  have hstart := Offset.toNat_ofNat_of_le (order.trans (inside.trans room))
  have hstop := Offset.toNat_ofNat_of_le (inside.trans room)
  have hordered := Offset.ofNat_le_ofNat order
  obtain ⟨final, hperform, hchars⟩ := Progress.exists_perform_of_le {} document
    (.deletion (.ofNat start) (.ofNat stop)) hordered hordered (by
      rw [LawfulDocument.length_eq]
      exact (congrArg (· ≤ _) hstop).mpr inside)
  refine ⟨final, ?_, ?_⟩
  · rw [Batch.apply_eq, Progress.run_singleton, hperform]
    rfl
  · change chars final = (chars document).take (Offset.ofNat start).toNat ++ [] ++
      (chars document).drop (Offset.ofNat stop).toNat at hchars
    rw [hchars, hstart, hstop, List.append_nil]

variable [LawfulLines D]

omit [LawfulDocument D] in
lemma Document.lineLength_eq {document : D} {whole : List Char} {line : ℕ}
    (h : (splitLines (chars document))[line]? = some whole) :
    lineLength document line = (lineContent whole).length := by
  rw [lineLength, LawfulLines.lineSpan_eq, spanOf_eq_ok h]

/-- The deletion of a line is recorded and made, in a document that offsets reach. -/
lemma Document.exists_apply_deleteLine (document : D) {line : ℕ} (h : line < lineCount document)
    (room : length document ≤ Offset.greatest.toNat) :
    ∃ batch final caret,
      (Recording.deleteLine document line).run.run {} = (.ok (), batch) ∧
      batch.apply document = (final, .ok (some caret)) ∧
      chars final = withoutLine (chars document) line ∧
      caret.toNat = (deletedRange (chars document) line).1 := by
  have hrecorded := Recording.records_deleteLine h {}
  rw [LawfulLines.lineCount_eq] at h
  rw [LawfulDocument.length_eq] at room
  obtain ⟨order, inside⟩ := deletedRange_le h
  obtain ⟨final, happly, hchars⟩ := Batch.exists_apply_deletion document order inside room
  exact ⟨_, final, _, hrecorded, happly, hchars,
    Offset.toNat_ofNat_of_le (order.trans (inside.trans room))⟩

/-- **The deletion of a line leaves the other lines** of a document, each with its content and in
order, and puts the caret at the end of the line in front, or at the start of the document. The
text must not be longer than offsets reach, and no carriage return may come to stand in front of a
line feed.

**Proof sketch.** The range reaches from the content of the line in front to the content of the
line. What is left has the two lines joined, the first one's content with the second one's break,
and with the lines in front and behind these are again lines, as breaks stay apart. For the first
line the range is the line with its break, and what is left are the lines behind it. -/
theorem Document.apply_deleteLine (document : D) (line : ℕ) (several : 1 < lineCount document)
    (h : line < lineCount document) (room : length document ≤ Offset.greatest.toNat)
    (apart : ¬ BreaksMeet (chars document) line) :
    ∃ batch final caret,
      (Recording.deleteLine document line).run.run {} = (.ok (), batch) ∧
      batch.apply document = (final, .ok (some caret)) ∧
      lineTexts final = (lineTexts document).eraseIdx line ∧
      lineCount final + 1 = lineCount document ∧
      offsetToPosition final caret.toNat =
        if line = 0 then ⟨0, 0⟩ else ⟨line - 1, lineLength document (line - 1)⟩ := by
  obtain ⟨batch, final, caret, hrecorded, happly, hchars, hcaret⟩ :=
    exists_apply_deleteLine document h room
  rw [LawfulLines.lineCount_eq] at several h
  have hcontents := map_lineContent_withoutLine several h apart
  refine ⟨batch, final, caret, hrecorded, happly, ?_, ?_, ?_⟩
  · have htexts := congrArg (List.map String.ofList) hcontents
    rw [List.map_map, List.eraseIdx_map, List.map_map] at htexts
    rw [lineTexts_eq, lineTexts_eq, hchars, List.eraseIdx_map]
    exact htexts
  · have hcount := congrArg List.length hcontents
    rw [List.length_map, List.length_eraseIdx_of_lt (by simpa using h), List.length_map] at hcount
    rw [LawfulLines.lineCount_eq, LawfulLines.lineCount_eq, hchars, hcount]
    omega
  · obtain ⟨front, whole, behind, column, hlines, hplace, hcolumn, hfront, hlength⟩ :=
      exists_line_at_deletedRange several h apart
    rw [← hchars] at hlines
    rw [hcaret, hplace, offsetToPosition_eq hlines hcolumn, hfront, hlength]
    split_ifs with hline
    · rw [hline]
    · have hprevious := List.getElem?_eq_getElem
        (show line - 1 < (splitLines (chars document)).length by omega)
      rw [lineLength_eq hprevious, hprevious, Option.getD_some]

/-- Lines of a text with six kinds of breaks: without the fourth line, the third one ends in the
break of the fourth. -/
theorem Document.apply_deleteLine_mixed :
    let document : FlatText := ⟨"a\r\nb\x0b\rc\n\u2028\x0cd"⟩
    1 < lineCount document ∧ 3 < lineCount document ∧
    length document ≤ Offset.greatest.toNat ∧ ¬ BreaksMeet (chars document) 3 ∧
    ∃ batch final caret,
      (Recording.deleteLine document 3).run.run {} = (.ok (), batch) ∧
      batch.apply document = (final, .ok (some caret)) ∧
      lineTexts final = ["a", "b", "", "", "", "d"] ∧
      lineCount final + 1 = lineCount document ∧
      offsetToPosition final caret.toNat = ⟨2, 0⟩ := by
  intro document
  have several : 1 < lineCount document := by decide
  have h : 3 < lineCount document := by decide
  have room : length document ≤ Offset.greatest.toNat := by decide
  have apart : ¬ BreaksMeet (chars document) 3 := by decide
  obtain ⟨batch, final, caret, hrecorded, happly, htexts, hcount, hposition⟩ :=
    apply_deleteLine document 3 several h room apart
  have hothers : (lineTexts document).eraseIdx 3 = ["a", "b", "", "", "", "d"] := by decide
  have hlength : lineLength document 2 = 0 := by decide
  rw [hothers] at htexts
  rw [if_neg (by decide), hlength] at hposition
  exact ⟨several, h, room, apart, batch, final, caret, hrecorded, happly, htexts, hcount, hposition⟩

/-- **Where breaks meet, a second line goes**, the empty one in front, and the caret comes to stand
inside of the break of the line in front of that one. -/
theorem Document.apply_deleteLine_of_breaksMeet (document : D) (line : ℕ)
    (h : line < lineCount document) (room : length document ≤ Offset.greatest.toNat)
    (meet : BreaksMeet (chars document) line) :
    2 ≤ line ∧ line? document (line - 1) = some "" ∧
    ∃ batch final caret,
      (Recording.deleteLine document line).run.run {} = (.ok (), batch) ∧
      batch.apply document = (final, .ok (some caret)) ∧
      lineTexts final = ((lineTexts document).eraseIdx line).eraseIdx (line - 1) ∧
      lineCount final + 2 = lineCount document ∧
      offsetToPosition final caret.toNat = ⟨line - 2, lineLength document (line - 2) + 1⟩ := by
  obtain ⟨batch, final, caret, hrecorded, happly, hchars, hcaret⟩ :=
    exists_apply_deleteLine document h room
  rw [LawfulLines.lineCount_eq] at h
  obtain ⟨ahead, content, first, second, behind, hlines, plain, hempty, rfl, hleft⟩ :=
    exists_lines_of_breaksMeet h meet
  rw [← hchars] at hleft
  refine ⟨Nat.le_add_left _ _, ?_, batch, final, caret, hrecorded, happly, ?_, ?_, ?_⟩
  · rw [line?_eq, hlines]
    simp [hempty]
  · rw [lineTexts_eq, lineTexts_eq, hleft, hlines, List.eraseIdx_map, List.eraseIdx_map]
    simp [List.eraseIdx_append_of_length_le, lineContent_append plain .crlf,
      lineContent_append plain (.char isLineBreak_cr)]
  · rw [LawfulLines.lineCount_eq, LawfulLines.lineCount_eq, hleft, hlines]
    simp only [List.length_append, List.length_cons]
    omega
  · have hprevious : (splitLines (chars document))[ahead.length]? = some (content ++ ['\r']) := by
      simp [hlines]
    have hfirst : (splitLines (chars document))[ahead.length + 1]? = some first := by simp [hlines]
    have hplace : (deletedRange (chars document) (ahead.length + 2)).1 =
        ahead.flatten.length + (content.length + 1) := by
      rw [deletedRange_succ, lineStop_eq hfirst, hempty, lineStart_succ hprevious, lineStart,
        hlines]
      simp
    rw [hcaret, hplace, offsetToPosition_eq hleft (.inl (by simp)), Nat.add_sub_cancel,
      lineLength_eq hprevious, lineContent_append plain (.char isLineBreak_cr)]

/-- Breaks do meet: of four empty lines that end in a carriage return, a vertical tab and a line
feed, two are left without the third. -/
theorem Document.not_forall_lineCount_deleteLine :
    ¬ ∀ (document : FlatText) (line : ℕ), 1 < lineCount document → line < lineCount document →
      length document ≤ Offset.greatest.toNat →
      ∃ batch final caret,
        (Recording.deleteLine document line).run.run {} = (.ok (), batch) ∧
        batch.apply document = (final, .ok (some caret)) ∧
        lineCount final + 1 = lineCount document := by
  intro hall
  let document : FlatText := ⟨"\r\x0b\n"⟩
  have h : 2 < lineCount document := by decide
  have room : length document ≤ Offset.greatest.toNat := by decide
  obtain ⟨batch, final, caret, hrecorded, happly, hcount⟩ := hall document 2 (by decide) h room
  obtain ⟨-, -, batch', final', caret', hrecorded', happly', -, hcount', -⟩ :=
    apply_deleteLine_of_breaksMeet document 2 h room (by decide)
  obtain rfl := (Prod.mk.inj (hrecorded.symm.trans hrecorded')).2
  obtain rfl := (Prod.mk.inj (happly.symm.trans happly')).1
  omega

end Apply

end EditBatch
