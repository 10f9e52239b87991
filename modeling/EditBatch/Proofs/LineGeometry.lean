import EditBatch.Proofs.LineDeletion
set_option autoImplicit false

/-!
# Lines tile their document

The first line starts where the document does, each line stops in front of a break, the next line
starts behind that break, and the last line stops where the document does. So the texts of the lines
and the breaks between them are the document, nothing left out and nothing twice, and there is one
line more than there are breaks.

## Main definitions

* `EditBatch.breakCount` — the number of breaks of a text, counted by the characters that end them.
* `EditBatch.Document.breakBehind` — the break between a line and the next.
* `EditBatch.Document.LinesTile` — what it means that lines tile a document.

## Main results

* `EditBatch.length_splitLines` — one line more than breaks.
* `EditBatch.AreLines.not_meet` — no break is cut in two where a line starts.
* `EditBatch.lineStart_succ_eq_ite` — a line stops in front of a break, and the next starts behind
  it.
* `EditBatch.Document.linesTile_of_stores` — the lines of both stores tile their documents.
-/

namespace EditBatch

open Document

/-! ## Counting breaks -/

/-- Whether the character at an offset is the last one of a break. A carriage return in front of a
line feed is not. -/
def EndsBreak (text : List Char) (offset : ℕ) : Prop :=
  (∃ c ∈ text[offset]?, IsLineBreak c) ∧
    ¬ (text[offset]? = some '\r' ∧ text[offset + 1]? = some '\n')

instance (text : List Char) (offset : ℕ) : Decidable (EndsBreak text offset) :=
  have : Decidable (∃ c ∈ text[offset]?, IsLineBreak c) :=
    decidable_of_iff (text[offset]?.any fun c => decide (IsLineBreak c))
      (by simp [Option.any_eq_true])
  inferInstanceAs (Decidable (_ ∧ _))

/-- The number of breaks of a text. -/
def breakCount (text : List Char) : ℕ :=
  (List.range text.length).countP fun offset => EndsBreak text offset

lemma breakCount_cons (c : Char) (rest : List Char) :
    breakCount (c :: rest) = breakCount rest + if EndsBreak (c :: rest) 0 then 1 else 0 := by
  have htail : ∀ offset, EndsBreak (c :: rest) (offset + 1) ↔ EndsBreak rest offset :=
    fun _ => Iff.rfl
  unfold breakCount
  rw [List.length_cons, List.range_succ_eq_map, List.countP_cons, List.countP_map]
  simp [Function.comp_def, htail]

/-- **There is one line more than there are breaks.** -/
lemma length_splitLines (text : List Char) : (splitLines text).length = breakCount text + 1 := by
  fun_induction splitLines text with
  | case1 => rfl
  | case2 rest ih =>
    have hfirst : ¬ EndsBreak ('\r' :: '\n' :: rest) 0 := by
      rintro ⟨-, hwhole⟩
      exact hwhole ⟨rfl, rfl⟩
    have hsecond : EndsBreak ('\n' :: rest) 0 := by simp [EndsBreak, isLineBreak_lf]
    rw [List.length_cons, ih, breakCount_cons, breakCount_cons, if_neg hfirst, if_pos hsecond]
  | case3 c rest hwhole hc ih =>
    have hends : EndsBreak (c :: rest) 0 := by
      refine ⟨⟨c, rfl, hc⟩, ?_⟩
      rintro ⟨hcr, hlf⟩
      rcases rest with _ | ⟨d, behind⟩
      · cases hlf
      · exact hwhole behind (Option.some.inj hcr) (congrArg (· :: behind) (Option.some.inj hlf))
    rw [List.length_cons, ih, breakCount_cons, if_pos hends]
  | case4 c rest hwhole hc ih =>
    have hends : ¬ EndsBreak (c :: rest) 0 := by
      rintro ⟨⟨d, hd, hbreak⟩, -⟩
      obtain rfl := Option.some.inj hd
      exact hc hbreak
    have hlength : (consToFirst c (splitLines rest)).length = (splitLines rest).length := by
      rcases hlines : splitLines rest with _ | ⟨line, lines⟩
      · exact absurd hlines (splitLines_ne_nil rest)
      · rfl
    rw [hlength, ih, breakCount_cons, if_neg hends, Nat.add_zero]

/-! ## Where lines start and stop -/

/-- **No break is cut in two** where a line starts.

**Proof sketch.** Induction on the lines in front. If the last character in front is that of the
first line, its break is a carriage return alone, and then no line feed follows. -/
lemma AreLines.not_meet {front rest : List (List Char)} (h : AreLines (front ++ rest))
    (hrest : rest ≠ []) : ¬ Meet front.flatten rest.flatten := by
  induction front with
  | nil =>
    rintro ⟨hlast, -⟩
    cases hlast
  | cons first front ih =>
    rw [List.cons_append] at h
    obtain ⟨content, brk, rfl, plain, ends, whole, lines⟩ := h.exists_break (by simp [hrest])
    rintro ⟨hlast, hhead⟩
    rcases List.eq_nil_or_concat' front.flatten with hnil | ⟨between, last, hbetween⟩
    · rw [List.flatten_cons, hnil, List.append_nil,
        List.getLast?_append_of_ne_nil _ ends.ne_nil] at hlast
      have hcr : brk = ['\r'] := by
        cases ends with
        | char hc => simpa using hlast
        | crlf => simp at hlast
      refine whole hcr ?_
      rw [List.flatten_append, hnil, List.nil_append, hhead]
    · refine ih lines ⟨?_, hhead⟩
      rw [List.flatten_cons, hbetween, ← List.append_assoc] at hlast
      rw [hbetween, List.getLast?_concat]
      rwa [List.getLast?_concat] at hlast

section Text

variable {text : List Char} {line : ℕ}

/-- A text is cut in two at the start of each of its lines. -/
lemma cut_lineStart {front behind : List (List Char)} {whole : List Char}
    (h : splitLines text = front ++ whole :: behind) :
    text.take (lineStart text front.length) = front.flatten ∧
      text.drop (lineStart text front.length) = whole ++ behind.flatten := by
  have htext : text = front.flatten ++ (whole ++ behind.flatten) := by
    rw [← flatten_splitLines text, h, List.flatten_append, List.flatten_cons]
  have hstart : lineStart text front.length = front.flatten.length := by
    rw [lineStart, h, List.take_left]
  rw [hstart]
  conv in text.take _ => rw [htext]
  conv in text.drop _ => rw [htext]
  exact ⟨List.take_left, List.drop_left⟩

/-- Every line that there is has lines in front and lines behind. -/
lemma exists_splitLines_eq (h : line < (splitLines text).length) :
    ∃ front whole behind, splitLines text = front ++ whole :: behind ∧ front.length = line :=
  ⟨_, _, _, splitLines_eq_append (List.getElem?_eq_getElem h), List.length_take_of_le h.le⟩

lemma not_meet_lineStart (h : line < (splitLines text).length) :
    ¬ Meet (text.take (lineStart text line)) (text.drop (lineStart text line)) := by
  obtain ⟨front, whole, behind, hlines, rfl⟩ := exists_splitLines_eq h
  obtain ⟨hfront, hbehind⟩ := cut_lineStart hlines
  rw [hfront, hbehind, ← List.flatten_cons]
  exact (AreLines.of_splitLines_eq hlines).not_meet (List.cons_ne_nil _ _)

/-- Nor is a break cut in two where a line stops. -/
lemma not_meet_lineStop (h : line < (splitLines text).length) :
    ¬ Meet (text.take (lineStop text line)) (text.drop (lineStop text line)) := by
  have hstart := not_meet_lineStart h
  obtain ⟨front, whole, behind, hlines, rfl⟩ := exists_splitLines_eq h
  obtain ⟨hfront, hbehind⟩ := cut_lineStart hlines
  obtain ⟨hbefore, hafter⟩ := cut_lineStop hlines
  have plain := (AreLines.of_splitLines_eq hlines).of_append.plain_lineContent
  rw [hbefore, hafter]
  rcases List.eq_nil_or_concat' (lineContent whole) with hnil | ⟨content, last, hcontent⟩
  · have hwhole : lineBreak whole = whole := by
      have := lineContent_append_lineBreak whole
      rwa [hnil, List.nil_append] at this
    rwa [hnil, hwhole, List.append_nil, ← hfront, ← hbehind]
  · rintro ⟨hlast, -⟩
    rw [hcontent, ← List.append_assoc, List.getLast?_concat] at hlast
    refine plain '\r' ?_ isLineBreak_cr
    rw [hcontent, ← Option.some.inj hlast]
    exact List.mem_append_right _ (List.mem_singleton_self last)

/-- The characters from the start of a line to its stop are its content. -/
lemma take_drop_lineStop (h : line < (splitLines text).length) :
    (text.take (lineStop text line)).drop (lineStart text line) =
      lineContent ((splitLines text)[line]?.getD []) := by
  obtain ⟨front, whole, behind, hlines, rfl⟩ := exists_splitLines_eq h
  have hstart : lineStart text front.length = front.flatten.length := by
    rw [lineStart, hlines, List.take_left]
  rw [(cut_lineStop hlines).1, hstart, List.drop_left, hlines]
  simp

/-- What stands between a line and the next is the break at its end. -/
lemma take_drop_lineStart_succ (h : line < (splitLines text).length) :
    (text.take (lineStart text (line + 1))).drop (lineStop text line) =
      lineBreak ((splitLines text)[line]?.getD []) := by
  obtain ⟨front, whole, behind, hlines, rfl⟩ := exists_splitLines_eq h
  have hwhole : (splitLines text)[front.length]? = some whole := by simp [hlines]
  have hwidth : lineStart text (front.length + 1) - lineStop text front.length =
      (lineBreak whole).length := by
    rw [lineStart_succ hwhole, lineStop_eq hwhole, lineBreak, List.length_drop]
    omega
  rw [List.drop_take, (cut_lineStop hlines).2, hwidth, hwhole, Option.getD_some, List.take_left]

/-- The last line stops where the text does. -/
lemma lineStop_last (h : line + 1 = (splitLines text).length) :
    lineStop text line = text.length := by
  obtain ⟨front, whole, behind, hlines, rfl⟩ :=
    exists_splitLines_eq (show line < (splitLines text).length by omega)
  obtain rfl : behind = [] := by
    rw [hlines, List.length_append, List.length_cons] at h
    exact List.length_eq_zero_iff.mp (by omega)
  have hcut := congrArg List.length (cut_lineStop hlines).2
  have hbreak : lineBreak whole = [] := by
    cases (AreLines.of_splitLines_eq hlines).of_append with
    | last plain => exact lineBreak_of_plain plain
    | cons _ _ _ lines => exact absurd rfl lines.ne_nil
  have hle := lineStop_le_length (show front.length < (splitLines text).length by omega)
  rw [hbreak, List.length_drop] at hcut
  simp only [List.flatten_nil, List.append_nil, List.length_nil] at hcut
  omega

/-- **A line stops in front of a break**, and the next one starts behind it: two characters further
on if these are a carriage return and a line feed, and otherwise one. -/
lemma lineStart_succ_eq_ite (h : line + 1 < (splitLines text).length) :
    (∃ c ∈ text[lineStop text line]?, IsLineBreak c) ∧
      lineStart text (line + 1) =
        if text[lineStop text line]? = some '\r' ∧ text[lineStop text line + 1]? = some '\n' then
          lineStop text line + 2
        else lineStop text line + 1 := by
  obtain ⟨front, whole, behind, hlines, rfl⟩ :=
    exists_splitLines_eq (show line < (splitLines text).length by omega)
  have hbehind : behind ≠ [] := by
    rintro rfl
    rw [hlines, List.length_append, List.length_singleton] at h
    omega
  obtain ⟨content, brk, rfl, plain, ends, unbroken, -⟩ :=
    (AreLines.of_splitLines_eq hlines).of_append.exists_break hbehind
  have hwhole : (splitLines text)[front.length]? = some (content ++ brk) := by simp [hlines]
  have hnext : lineStart text (front.length + 1) = lineStop text front.length + brk.length := by
    rw [lineStart_succ hwhole, lineStop_eq hwhole, lineContent_append plain ends,
      List.length_append]
    omega
  -- what stands at the stop is the break, and the next line behind it
  have hcut := (cut_lineStop hlines).2
  rw [lineBreak_append plain ends] at hcut
  have hget : ∀ index,
      text[lineStop text front.length + index]? = (brk ++ behind.flatten)[index]? := by
    intro index
    rw [← hcut, List.getElem?_drop]
  have hzero := hget 0
  rw [Nat.add_zero] at hzero
  rw [hnext, hzero, hget 1]
  cases ends with
  | @char c hc =>
    refine ⟨⟨c, rfl, hc⟩, ?_⟩
    rw [if_neg ?_, List.length_singleton]
    rintro ⟨hcr, hlf⟩
    obtain rfl : c = '\r' := Option.some.inj hcr
    refine unbroken rfl ?_
    rw [List.head?_eq_getElem?]
    exact hlf
  | crlf => exact ⟨⟨'\r', rfl, isLineBreak_cr⟩, (if_pos ⟨rfl, rfl⟩).symm⟩

end Text

/-! ## Documents -/

namespace Document

/-- The text between a line and the next one, which is its break. There is none behind the last
line. -/
def breakBehind {D : Type} [Document D] (document : D) (line : ℕ) : String :=
  match lineSpan document line, lineSpan document (line + 1) with
  | .ok span, .ok next => slice document span.stop next.start
  | _, _ => ""

/-- Whether the lines of a document tile it. -/
structure LinesTile {D : Type} [Document D] (document : D) : Prop where
  /-- There is one line more than there are breaks. -/
  count : lineCount document = breakCount (chars document) + 1
  /-- Every line in front of the count lies somewhere. -/
  exists_span : ∀ line < lineCount document, ∃ span, lineSpan document line = .ok span
  /-- There are no other lines. -/
  no_span : ∀ line ≥ lineCount document,
    lineSpan document line = .error (.invalidLine line (lineCount document))
  /-- The first line starts where the document does. -/
  start_first : ∀ span, lineSpan document 0 = .ok span → span.start = 0
  /-- A line stops in front of a break, and the next one starts behind it. -/
  start_next : ∀ line span next, lineSpan document line = .ok span →
    lineSpan document (line + 1) = .ok next →
      (∃ c ∈ (chars document)[span.stop]?, IsLineBreak c) ∧
        next.start =
          if (chars document)[span.stop]? = some '\r' ∧ (chars document)[span.stop + 1]? = some '\n'
          then span.stop + 2 else span.stop + 1
  /-- The last line stops where the document does. -/
  stop_last : ∀ line span, line + 1 = lineCount document → lineSpan document line = .ok span →
    span.stop = length document
  /-- A line has no break inside. -/
  plain : ∀ line span, lineSpan document line = .ok span →
    ∀ offset, span.start ≤ offset → offset < span.stop →
      ∃ c ∈ (chars document)[offset]?, ¬ IsLineBreak c
  /-- The text of a line is what stands from its start to its stop. -/
  text : ∀ line span, lineSpan document line = .ok span →
    line? document line = some (slice document span.start span.stop) ∧
      (slice document span.start span.stop).toList =
        ((chars document).take span.stop).drop span.start
  /-- A carriage return and a line feed behind it stay together. -/
  unbroken : ∀ line span, lineSpan document line = .ok span →
    ¬ Meet ((chars document).take span.start) ((chars document).drop span.start) ∧
      ¬ Meet ((chars document).take span.stop) ((chars document).drop span.stop)
  /-- The lines with the breaks between them are the whole text. -/
  content : content document = String.join ((List.range (lineCount document)).map fun line =>
    (line? document line).getD "" ++ breakBehind document line)

variable {D : Type} [Document D] [LawfulLines D] {document : D} {line : ℕ} {span : LineSpan}

/-- A line that lies somewhere lies between its start and its stop in the text. -/
lemma span_of_lineSpan (h : lineSpan document line = .ok span) :
    line < (splitLines (chars document)).length ∧ span.start = lineStart (chars document) line ∧
      span.stop = lineStop (chars document) line := by
  rw [LawfulLines.lineSpan_eq] at h
  rcases Nat.lt_or_ge line (splitLines (chars document)).length with hlt | hge
  · have hwhole := List.getElem?_eq_getElem hlt
    rw [spanOf_eq_ok hwhole] at h
    cases h
    exact ⟨hlt, rfl, (lineStop_eq hwhole).symm⟩
  · rw [spanOf_eq_error hge] at h
    cases h

lemma exists_lineSpan (h : line < (splitLines (chars document)).length) :
    ∃ span, lineSpan document line = .ok span := by
  rw [LawfulLines.lineSpan_eq, spanOf_eq_ok (List.getElem?_eq_getElem h)]
  exact ⟨_, rfl⟩

/-- The break behind a line is the one that the line ends in. -/
lemma breakBehind_eq (h : line < (splitLines (chars document)).length) :
    breakBehind document line =
      String.ofList (lineBreak ((splitLines (chars document))[line]?.getD [])) := by
  obtain ⟨span, hspan⟩ := exists_lineSpan h
  rcases Nat.lt_or_ge (line + 1) (splitLines (chars document)).length with hlt | hge
  · obtain ⟨next, hnext⟩ := exists_lineSpan hlt
    simp only [breakBehind, hspan, hnext]
    rw [LawfulLines.slice_eq, (span_of_lineSpan hspan).2.2, (span_of_lineSpan hnext).2.1,
      take_drop_lineStart_succ h]
  · have hlast : line + 1 = (splitLines (chars document)).length := by omega
    have hnone := LawfulLines.lineSpan_eq document (line + 1)
    rw [spanOf_eq_error hge] at hnone
    simp only [breakBehind, hspan, hnone]
    rw [← take_drop_lineStart_succ h, lineStop_last hlast, hlast, lineStart_length,
      List.take_length, List.drop_length]

/-- A line and the break behind it are the line as a whole. -/
lemma line?_append_breakBehind (h : line < (splitLines (chars document)).length) :
    (line? document line).getD "" ++ breakBehind document line =
      String.ofList ((splitLines (chars document))[line]?.getD []) := by
  rw [breakBehind_eq h, line?_eq, List.getElem?_eq_getElem h, Option.map_some, Option.getD_some,
    Option.getD_some, ← String.ofList_append, lineContent_append_lineBreak]

/-- The texts of lines, put together. -/
lemma join_map_ofList (lines : List (List Char)) :
    String.join (lines.map String.ofList) = String.ofList lines.flatten := by
  apply String.ext
  rw [String.toList_join, List.flatMap_map, String.toList_ofList]
  simp [List.flatMap_def]

variable [LawfulDocument D]

/-- **The lines of a document tile it**, in every store that knows them by the characters. -/
lemma linesTile (document : D) : LinesTile document where
  count := by rw [LawfulLines.lineCount_eq, length_splitLines]
  exists_span line h := exists_lineSpan (by rwa [← LawfulLines.lineCount_eq])
  no_span line h := by
    rw [LawfulLines.lineSpan_eq, LawfulLines.lineCount_eq]
    exact spanOf_eq_error (by rwa [← LawfulLines.lineCount_eq])
  start_first span h := (span_of_lineSpan h).2.1
  start_next line span next h hnext := by
    obtain ⟨-, -, hstop⟩ := span_of_lineSpan h
    obtain ⟨hlt, hstart, -⟩ := span_of_lineSpan hnext
    rw [hstop, hstart]
    exact lineStart_succ_eq_ite hlt
  stop_last line span hlast h := by
    rw [(span_of_lineSpan h).2.2, LawfulDocument.length_eq]
    exact lineStop_last (by rwa [← LawfulLines.lineCount_eq])
  plain line span h offset hstart hstop := by
    obtain ⟨hlt, hfirst, hlast⟩ := span_of_lineSpan h
    have hinside : offset < (chars document).length := by
      have := lineStop_le_length hlt
      omega
    have hmem : (chars document)[offset] ∈
        ((chars document).take span.stop).drop span.start := by
      refine List.mem_iff_getElem?.mpr ⟨offset - span.start, ?_⟩
      rw [List.getElem?_drop, List.getElem?_take_of_lt (by omega), Nat.add_sub_cancel' hstart,
        List.getElem?_eq_getElem hinside]
    rw [hfirst, hlast, take_drop_lineStop hlt] at hmem
    obtain ⟨front, whole, behind, hlines, rfl⟩ := exists_splitLines_eq hlt
    have hplain := (AreLines.of_splitLines_eq hlines).of_append.plain_lineContent
    rw [hlines] at hmem
    exact ⟨_, List.getElem?_eq_getElem hinside, hplain _ (by simpa using hmem)⟩
  text line span h := by
    refine ⟨by rw [line?, h], ?_⟩
    rw [LawfulLines.slice_eq, String.toList_ofList]
  unbroken line span h := by
    obtain ⟨hlt, hstart, hstop⟩ := span_of_lineSpan h
    rw [hstart, hstop]
    exact ⟨not_meet_lineStart hlt, not_meet_lineStop hlt⟩
  content := by
    have hpieces : ((List.range (lineCount document)).map fun line =>
        (line? document line).getD "" ++ breakBehind document line) =
          (splitLines (chars document)).map String.ofList := by
      rw [LawfulLines.lineCount_eq]
      apply List.ext_getElem?
      intro line
      rcases Nat.lt_or_ge line (splitLines (chars document)).length with hlt | hge
      · rw [List.getElem?_map, List.getElem?_range hlt, Option.map_some,
          line?_append_breakBehind hlt, List.getElem?_map, List.getElem?_eq_getElem hlt,
          Option.map_some, Option.getD_some]
      · rw [List.getElem?_eq_none (by simpa using hge), List.getElem?_eq_none (by simpa using hge)]
    rw [hpieces, join_map_ofList, flatten_splitLines]
    exact String.ofList_toList.symm

/-- **The lines of both stores tile their documents**, whatever the text. The first line starts at
zero, each line stops in front of a break and the next one starts behind it, and the last line stops
at the end. No line has a break inside, no carriage return is parted from the line feed behind it,
and the lines with the breaks between them are the whole text. There is one line more than there are
breaks, and no other line is found.

**Proof sketch.** A text is cut in front of and behind the break of each of its lines
(`cut_lineStart`, `cut_lineStop`), and the lines are `AreLines`: all but the last end in a break
that does not go on in the next line. -/
theorem linesTile_of_stores (flat : FlatText) (rope : Rope) : LinesTile flat ∧ LinesTile rope :=
  ⟨linesTile flat, linesTile rope⟩

end Document

end EditBatch
