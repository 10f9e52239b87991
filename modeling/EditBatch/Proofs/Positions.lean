import EditBatch.Proofs.LineRecording
import Mathlib.Data.Prod.Lex
set_option autoImplicit false

/-!
# Offsets and positions stand for each other

Every offset of a document is on one line, and the position of the offset is that line with the
column in it. The position leads back to the offset, unless the offset lies between a carriage
return and its line feed: no position stands for that place, and the one of the offset leads to the
front of the break. Positions come in the order of their offsets.

## Main definitions

* `EditBatch.InsideBreak` — the offsets between a carriage return and a line feed.
* `EditBatch.Document.PositionsInvert` — what it means that offsets and positions of a document
  stand for each other.

## Main results

* `EditBatch.Document.lineAt_eq_ok_iff` — the line that is found for an offset is the one that the
  offset is on.
* `EditBatch.Document.eq_stop_add_one_of_onLine` — behind the stop of its line an offset is inside
  of a break.
* `EditBatch.Document.positionsInvert_of_stores` — offsets and positions of both stores stand for
  each other.
-/

namespace EditBatch

/-- Whether an offset lies between a carriage return and a line feed, which are one break. -/
def InsideBreak (text : List Char) (offset : ℕ) : Prop :=
  0 < offset ∧ text[offset - 1]? = some '\r' ∧ text[offset]? = some '\n'

instance (text : List Char) (offset : ℕ) : Decidable (InsideBreak text offset) :=
  inferInstanceAs (Decidable (_ ∧ _ ∧ _))

/-- Between the two characters of a break a carriage return and a line feed meet. -/
lemma InsideBreak.meet {text : List Char} {offset : ℕ} (h : InsideBreak text offset) :
    Meet (text.take offset) (text.drop offset) := by
  obtain ⟨positive, hcr, hlf⟩ := h
  refine ⟨?_, by rw [List.head?_drop, hlf]⟩
  rw [List.getLast?_take, if_neg positive.ne', hcr, Option.some_or]

/-- The line found for an offset starts at or in front of it, and the next one behind it. -/
lemma Rope.lineContaining_spec (offset : ℕ) {lines : List (List Char)} (h : lines ≠ []) :
    (lines.take (lineContaining offset lines)).flatten.length ≤ offset ∧
      (lineContaining offset lines + 1 < lines.length →
        offset < (lines.take (lineContaining offset lines + 1)).flatten.length) := by
  fun_induction lineContaining offset lines with
  | case1 => exact absurd rfl h
  | case2 => simp
  | case3 offset line next rest hlt => simpa using hlt
  | case4 offset line next rest hlt ih =>
    obtain ⟨hstart, hnext⟩ := ih (List.cons_ne_nil next rest)
    rw [List.take_succ_cons, List.take_succ_cons, List.flatten_cons, List.flatten_cons,
      List.length_append, List.length_append, List.length_cons]
    refine ⟨by omega, fun hmore => ?_⟩
    have := hnext (by omega)
    omega

namespace Document

section Lines

variable {D : Type} [Document D] {document : D} {line offset : ℕ} {span : LineSpan}

/-! ## Where lines lie -/

lemma positionToOffset_of_lineSpan (h : lineSpan document line = .ok span) (column : ℕ) :
    positionToOffset document ⟨line, column⟩ = span.start + min column span.length := by
  simp only [positionToOffset, h]

lemma positionToOffset_of_error {cause : EditError} (h : lineSpan document line = .error cause)
    (column : ℕ) : positionToOffset document ⟨line, column⟩ = length document := by
  simp only [positionToOffset, h]

variable [LawfulLines D]

/-- A line further down starts further on. -/
lemma span_start_mono {later : ℕ} {span' : LineSpan} (h : lineSpan document line = .ok span)
    (h' : lineSpan document later = .ok span') (hle : line ≤ later) : span.start ≤ span'.start := by
  rw [(span_of_lineSpan h).2.1, (span_of_lineSpan h').2.1]
  exact lineStart_mono _ hle

/-- A later offset is on a later line, or on the same. -/
lemma OnLine.mono {later offset' : ℕ} (h : OnLine document line offset)
    (h' : OnLine document later offset') (hle : offset ≤ offset') : line ≤ later := by
  by_contra! hlt
  obtain ⟨⟨span, hspan, hstart⟩, -, -⟩ := h
  obtain ⟨-, hnext, -⟩ := h'
  have hexists := (span_of_lineSpan hspan).1
  obtain ⟨next, hnextSpan⟩ :=
    exists_lineSpan (show later + 1 < (splitLines (chars document)).length by omega)
  have hbefore := hnext next hnextSpan
  have hmono := span_start_mono hnextSpan hspan hlt
  omega

variable [LawfulDocument D]

lemma span_stop_le_length (h : lineSpan document line = .ok span) :
    span.stop ≤ length document := by
  obtain ⟨hlt, -, hstop⟩ := span_of_lineSpan h
  rw [hstop, LawfulDocument.length_eq]
  exact lineStop_le_length hlt

/-- From the start of a line to its stop all offsets are on it. -/
lemma onLine_of_le_stop (h : lineSpan document line = .ok span) (hstart : span.start ≤ offset)
    (hstop : offset ≤ span.stop) : OnLine document line offset := by
  refine ⟨⟨span, h, hstart⟩, fun next hnext => ?_, hstop.trans (span_stop_le_length h)⟩
  have hbehind := ((linesTile document).start_next line span next h hnext).2
  split_ifs at hbehind <;> omega

/-- No offset from the start of a line to its stop is inside of a break: in front of it stands the
end of the line before, or a character of the line. -/
lemma not_insideBreak_of_le_stop (h : lineSpan document line = .ok span)
    (hstart : span.start ≤ offset) (hstop : offset ≤ span.stop) :
    ¬ InsideBreak (chars document) offset := by
  intro hinside
  rcases hstart.eq_or_lt with rfl | hlt
  · exact ((linesTile document).unbroken line span h).1 hinside.meet
  · obtain ⟨c, hc, hplain⟩ :=
      (linesTile document).plain line span h (offset - 1) (by omega) (by omega)
    rw [hinside.2.1] at hc
    obtain rfl := Option.some.inj hc
    exact hplain isLineBreak_cr

/-- **Behind the stop of its line an offset is inside of a break**, one character further on. -/
lemma eq_stop_add_one_of_onLine (hline : OnLine document line offset)
    (h : lineSpan document line = .ok span) (hbehind : span.stop < offset) :
    offset = span.stop + 1 ∧ InsideBreak (chars document) offset := by
  have tile := linesTile document
  have hcount : line < lineCount document := by
    rw [LawfulLines.lineCount_eq]
    exact (span_of_lineSpan h).1
  rcases Nat.lt_or_ge (line + 1) (lineCount document) with hlt | hge
  · obtain ⟨next, hnext⟩ := tile.exists_span (line + 1) hlt
    have hbefore := hline.2.1 next hnext
    have hstart := (tile.start_next line span next h hnext).2
    split_ifs at hstart with hcrlf
    · obtain rfl : offset = span.stop + 1 := by omega
      exact ⟨rfl, Nat.succ_pos _, hcrlf⟩
    · omega
  · -- behind the last line there are no offsets
    have hlast := tile.stop_last line span (by omega) h
    have := hline.2.2
    omega

/-! ## The line of an offset -/

/-- An offset is on the line that is found for it. -/
lemma onLine_of_lineAt (h : lineAt document offset = .ok line) : OnLine document line offset := by
  rw [LawfulLines.lineAt_eq, lineOf] at h
  split_ifs at h with hinside
  obtain rfl := Except.ok.inj h
  have hne := splitLines_ne_nil (chars document)
  obtain ⟨hstart, hnext⟩ := Rope.lineContaining_spec offset hne
  obtain ⟨span, hspan⟩ := exists_lineSpan (Rope.lineContaining_lt offset hne)
  refine ⟨⟨span, hspan, ?_⟩, fun next hnextSpan => ?_, ?_⟩
  · rw [(span_of_lineSpan hspan).2.1]
    exact hstart
  · obtain ⟨hlt, hfirst, -⟩ := span_of_lineSpan hnextSpan
    rw [hfirst]
    exact hnext hlt
  · rwa [LawfulDocument.length_eq]

/-- **The line that is found for an offset** is the one that the offset is on. -/
theorem lineAt_eq_ok_iff : lineAt document offset = .ok line ↔ OnLine document line offset :=
  ⟨onLine_of_lineAt, lineAt_of_onLine⟩

/-- For every offset of a document a line is found. -/
lemma exists_lineAt (h : offset ≤ length document) : ∃ line, lineAt document offset = .ok line := by
  rw [LawfulDocument.length_eq] at h
  rw [LawfulLines.lineAt_eq, lineOf, if_pos h]
  exact ⟨_, rfl⟩

/-- The position of an offset is its line, with the distance from the start of the line. -/
lemma offsetToPosition_of_onLine (hline : OnLine document line offset)
    (h : lineSpan document line = .ok span) :
    offsetToPosition document offset = ⟨line, offset - span.start⟩ := by
  simp only [offsetToPosition, Nat.min_eq_left hline.2.2, lineAt_of_onLine hline, h]

/-! ## There and back -/

/-- **A position on a line is the position of its offset.** -/
lemma offsetToPosition_positionToOffset (hline : line < lineCount document) {column : ℕ}
    (hcolumn : column ≤ lineLength document line) :
    offsetToPosition document (positionToOffset document ⟨line, column⟩) = ⟨line, column⟩ := by
  obtain ⟨span, hspan⟩ := (linesTile document).exists_span line hline
  simp only [lineLength, hspan] at hcolumn
  have hstop : span.start + column ≤ span.stop := Nat.add_le_add_left hcolumn _
  rw [positionToOffset_of_lineSpan hspan, Nat.min_eq_left hcolumn,
    offsetToPosition_of_onLine (onLine_of_le_stop hspan (Nat.le_add_right _ _) hstop) hspan,
    Nat.add_sub_cancel_left]

/-- **The position of an offset leads back to it**, or from inside of a break to the front of the
break. -/
lemma positionToOffset_offsetToPosition (h : offset ≤ length document) :
    positionToOffset document (offsetToPosition document offset) =
      if InsideBreak (chars document) offset then offset - 1 else offset := by
  obtain ⟨line, hfound⟩ := exists_lineAt h
  have hline := onLine_of_lineAt hfound
  obtain ⟨span, hspan, hstart⟩ := hline.1
  rw [offsetToPosition_of_onLine hline hspan, positionToOffset_of_lineSpan hspan]
  have hend : span.stop = span.start + span.length := rfl
  rcases Nat.lt_or_ge span.stop offset with hbehind | hinside
  · obtain ⟨rfl, hbreak⟩ := eq_stop_add_one_of_onLine hline hspan hbehind
    rw [if_pos hbreak]
    omega
  · rw [if_neg (not_insideBreak_of_le_stop hspan hstart hinside)]
    omega

/-- **Positions come in the order of their offsets.** -/
lemma offsetToPosition_lt {later : ℕ} (hlt : offset < later) (h : later ≤ length document) :
    toLex ((offsetToPosition document offset).line, (offsetToPosition document offset).column) <
      toLex ((offsetToPosition document later).line, (offsetToPosition document later).column) := by
  obtain ⟨first, hfound⟩ := exists_lineAt (hlt.le.trans h)
  obtain ⟨second, hfound'⟩ := exists_lineAt h
  have hfirst := onLine_of_lineAt hfound
  have hsecond := onLine_of_lineAt hfound'
  obtain ⟨span, hspan, hstart⟩ := hfirst.1
  obtain ⟨span', hspan', -⟩ := hsecond.1
  rw [offsetToPosition_of_onLine hfirst hspan, offsetToPosition_of_onLine hsecond hspan',
    Prod.Lex.toLex_lt_toLex]
  -- the later offset is on a later line, or further on in the same line
  rcases (hfirst.mono hsecond hlt.le).lt_or_eq with hbefore | rfl
  · exact .inl hbefore
  · obtain rfl := Except.ok.inj (hspan.symm.trans hspan')
    exact .inr ⟨rfl, Nat.sub_lt_sub_right hstart hlt⟩

/-- A position leads into the document, and never between the two characters of a break. -/
lemma positionToOffset_inside (document : D) (position : Position) :
    positionToOffset document position ≤ length document ∧
      ¬ InsideBreak (chars document) (positionToOffset document position) := by
  obtain ⟨line, column⟩ := position
  rcases hspan : lineSpan document line with cause | span
  · rw [positionToOffset_of_error hspan]
    refine ⟨le_rfl, ?_⟩
    rintro ⟨-, -, hlf⟩
    rw [LawfulDocument.length_eq, List.getElem?_eq_none le_rfl] at hlf
    cases hlf
  · have hstop : span.start + min column span.length ≤ span.stop :=
      Nat.add_le_add_left (Nat.min_le_right _ _) _
    rw [positionToOffset_of_lineSpan hspan]
    exact ⟨hstop.trans (span_stop_le_length hspan),
      not_insideBreak_of_le_stop hspan (Nat.le_add_right _ _) hstop⟩

end Lines

/-! ## Documents -/

/-- What it means that offsets and positions of a document stand for each other. -/
structure PositionsInvert {D : Type} [Document D] (document : D) : Prop where
  /-- Every offset is on one line only, and this line is found for it. -/
  line_of_offset : ∀ offset ≤ length document, ∃ line, lineAt document offset = .ok line ∧
    OnLine document line offset ∧ ∀ other, OnLine document other offset → other = line
  /-- A position on a line is the position of its offset. -/
  position_of_offset : ∀ line < lineCount document, ∀ column ≤ lineLength document line,
    offsetToPosition document (positionToOffset document ⟨line, column⟩) = ⟨line, column⟩
  /-- An offset is the offset of its position, but the place inside of a break is taken to the front
  of the break. -/
  offset_of_position : ∀ offset ≤ length document,
    positionToOffset document (offsetToPosition document offset) =
      if InsideBreak (chars document) offset then offset - 1 else offset
  /-- Positions come in the order of their offsets, by lines and then by columns. -/
  ordered : ∀ offset later, offset < later → later ≤ length document →
    toLex ((offsetToPosition document offset).line, (offsetToPosition document offset).column) <
      toLex ((offsetToPosition document later).line, (offsetToPosition document later).column)
  /-- An offset behind the document has the position of its end. -/
  clamped : ∀ offset ≥ length document,
    offsetToPosition document offset = offsetToPosition document (length document)
  /-- A position leads into the document, and never between the two characters of a break. -/
  inside : ∀ position, positionToOffset document position ≤ length document ∧
    ¬ InsideBreak (chars document) (positionToOffset document position)

/-- Offsets and positions of a document stand for each other, in every store that knows its lines by
the characters. -/
lemma positionsInvert {D : Type} [Document D] [LawfulDocument D] [LawfulLines D] (document : D) :
    PositionsInvert document where
  line_of_offset offset h := by
    obtain ⟨line, hfound⟩ := exists_lineAt h
    refine ⟨line, hfound, lineAt_eq_ok_iff.mp hfound, fun other hother => ?_⟩
    exact Except.ok.inj ((lineAt_eq_ok_iff.mpr hother).symm.trans hfound)
  position_of_offset line hline column hcolumn := offsetToPosition_positionToOffset hline hcolumn
  offset_of_position offset h := positionToOffset_offsetToPosition h
  ordered offset later hlt h := offsetToPosition_lt hlt h
  clamped offset h := by
    rw [offsetToPosition, offsetToPosition, Nat.min_eq_right h, Nat.min_self]
  inside position := positionToOffset_inside document position

/-- **Offsets and positions stand for each other in both stores.** Every offset of a flat text or a
rope is on one line, which is found for it. A position on a line is the position of its offset, and
an offset is that of its position, unless it lies between a carriage return and a line feed; then it
is taken back by one. Positions come in the order of their offsets, offsets behind the document have
the position of its end, and a position never leads outside of the document or into a break.

**Proof sketch.** The lines tile the document (`linesTile`). So an offset is on exactly one line
(`lineAt_eq_ok_iff`), and there it lies between the start and the stop of the line or one character
behind the stop, inside of a break (`eq_stop_add_one_of_onLine`). -/
theorem positionsInvert_of_stores (flat : FlatText) (rope : Rope) :
    PositionsInvert flat ∧ PositionsInvert rope :=
  ⟨positionsInvert flat, positionsInvert rope⟩

example : let document : FlatText := ⟨"a\r\nb"⟩
    offsetToPosition document 2 = ⟨0, 2⟩ ∧ positionToOffset document ⟨0, 2⟩ = 1 := by decide

end Document

end EditBatch
