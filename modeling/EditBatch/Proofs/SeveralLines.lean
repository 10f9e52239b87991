import EditBatch.Proofs.Deletions
import EditBatch.Proofs.LineDeletion
set_option autoImplicit false

/-!
# Deleting several lines in one batch

Each deletion of a line takes the line feed in front of the line, and only that of the first line
the one behind it. So the ranges of two lines have a line feed in common if they are the first two,
and in no other case. Of a text whose only breaks are line feeds the lines that are not listed are
left, and if both of the first two lines are listed, the line feed behind them is left over and has
an empty line in front.

## Main definitions

* `EditBatch.OnlyFeeds` — texts whose only breaks are line feeds.
* `EditBatch.linePieces` — a text cut where the deletions of lines start and stop.
* `EditBatch.firstPiece` — where the deletion of a line starts.

## Main results

* `EditBatch.map_lineContent_intercalate` — lines joined by line feeds fall apart again.
* `EditBatch.deletedRange_eq` — what the deletion of a line takes out, in pieces.
* `EditBatch.Document.apply_deleteLines` — the lines that are left.
-/

namespace EditBatch

open Document

/-! ## Texts whose only breaks are line feeds -/

/-- Whether line feeds are the only breaks of a text. -/
def OnlyFeeds (text : List Char) : Prop := ∀ c ∈ text, IsLineBreak c → c = '\n'

instance (text : List Char) : Decidable (OnlyFeeds text) :=
  List.decidableBAll (fun c => IsLineBreak c → c = '\n') text

section Feeds

variable {whole text : List Char} {front behind lines : List (List Char)}

lemma AreLines.plain_of_mem (h : AreLines lines) {line : List Char} (hmem : line ∈ lines) :
    Plain (lineContent line) := by
  obtain ⟨front, behind, rfl⟩ := List.append_of_mem hmem
  exact h.of_append.plain_lineContent

/-- The lines up to some line, joined by line feeds, are the text up to the stop of the line. -/
lemma AreLines.intercalate_append (h : AreLines (front ++ whole :: behind))
    (feeds : OnlyFeeds (front ++ whole :: behind).flatten) :
    ['\n'].intercalate ((front ++ [whole]).map lineContent) =
      front.flatten ++ lineContent whole := by
  induction front with
  | nil => simp
  | cons first front ih =>
    rw [List.cons_append] at h feeds ⊢
    obtain ⟨content, brk, rfl, plain, ends, -, lines⟩ := h.exists_break (by simp)
    have hfeed : brk = ['\n'] := by
      cases ends with
      | @char c hc => rw [feeds c (by simp) hc]
      | crlf =>
        have := feeds '\r' (by simp) isLineBreak_cr
        exact absurd this (by decide)
    have hrest : OnlyFeeds (front ++ whole :: behind).flatten :=
      fun c hmem => feeds c (List.mem_append_right _ hmem)
    rw [List.map_cons, List.intercalate_cons_of_ne_nil (by simp), ih lines hrest,
      lineContent_append plain ends, hfeed, List.flatten_cons]
    simp

/-- A text is its lines, joined by line feeds. -/
lemma intercalate_map_lineContent (feeds : OnlyFeeds text) :
    ['\n'].intercalate ((splitLines text).map lineContent) = text := by
  obtain ⟨front, last, hlines⟩ :=
    (List.eq_nil_or_concat' (splitLines text)).resolve_left (splitLines_ne_nil text)
  have harelines := AreLines.of_splitLines_eq hlines
  have hplain : lineContent last = last := by
    cases harelines.of_append with
    | last plain => exact lineContent_of_plain plain
    | cons _ _ _ lines => exact absurd rfl lines.ne_nil
  have hfeeds : OnlyFeeds (front ++ [last]).flatten := by rwa [← hlines, flatten_splitLines]
  rw [hlines, harelines.intercalate_append hfeeds, hplain, ← flatten_splitLines text, hlines]
  simp

/-- **Lines that are joined by line feeds** fall apart again into the same lines. -/
lemma map_lineContent_intercalate (plain : ∀ line ∈ lines, Plain line) (hlines : lines ≠ []) :
    (splitLines (['\n'].intercalate lines)).map lineContent = lines := by
  induction lines with
  | nil => exact absurd rfl hlines
  | cons first rest ih =>
    have hfirst := plain first List.mem_cons_self
    rcases rest with _ | ⟨next, rest⟩
    · rw [List.intercalate_singleton, splitLines_of_plain hfirst, List.map_singleton,
        lineContent_of_plain hfirst]
    · have hrest := ih (fun line hmem => plain line (List.mem_cons_of_mem first hmem))
        (List.cons_ne_nil next rest)
      rw [List.intercalate_cons_cons, splitLines_append hfirst (.char isLineBreak_lf) (by simp),
        List.map_cons, hrest, lineContent_append hfirst (.char isLineBreak_lf)]

/-- A list that is joined by line feeds, with each line feed at the start of the line behind it. -/
lemma intercalate_cons_eq (first : List Char) (behind : List (List Char)) :
    ['\n'].intercalate (first :: behind) = first ++ (behind.map ('\n' :: ·)).flatten := by
  induction behind generalizing first with
  | nil => simp
  | cons next behind ih =>
    rw [List.intercalate_cons_cons, ih next, List.map_cons, List.flatten_cons]
    simp

/-- Where a line stops in a text whose only breaks are line feeds. -/
lemma lineStop_eq_length (feeds : OnlyFeeds text) {line : ℕ}
    (h : line < (splitLines text).length) :
    lineStop text line =
      (['\n'].intercalate (((splitLines text).map lineContent).take (line + 1))).length := by
  have hwhole := List.getElem?_eq_getElem h
  have hlines := splitLines_eq_append hwhole
  have hfeeds : OnlyFeeds (splitLines text).flatten := by rwa [flatten_splitLines]
  rw [hlines] at hfeeds
  have hfront := (AreLines.of_splitLines_eq hlines).intercalate_append hfeeds
  rw [lineStop_eq hwhole, lineStart, ← List.length_append, ← hfront, List.take_append_getElem h,
    List.map_take]

end Feeds

/-! ## Pieces -/

/-- A text with two lines or more, cut where the deletions of lines start and stop: each line with
the line feed in front of it, except that the line feed in front of the second line is a piece of
its own. -/
def linePieces (first second : List Char) (behind : List (List Char)) : List (List Char) :=
  first :: ['\n'] :: second :: behind.map ('\n' :: ·)

/-- The first piece that the deletion of a line takes out. The last one is always `line + 1`, so
that the first two lines take two pieces, and the others one. -/
def firstPiece (line : ℕ) : ℕ := if line < 2 then line else line + 1

/-- Whether the deletions of some lines take out a piece. -/
def gonePiece (lines : List ℕ) (number : ℕ) : Bool :=
  lines.any fun line => firstPiece line ≤ number && number < line + 2

/-- An offset in a piece is behind the start of just the pieces up to this one. -/
lemma length_flatten_take_le_iff {pieces : List (List Char)} {number : ℕ} {piece : List Char}
    (h : pieces[number]? = some piece) {index : ℕ} (hindex : index < piece.length) (other : ℕ) :
    (pieces.take other).flatten.length ≤ (pieces.take number).flatten.length + index ↔
      other ≤ number := by
  constructor
  · intro hle
    by_contra hlater
    have hmono := length_flatten_take_mono pieces (show number + 1 ≤ other by omega)
    rw [List.take_add_one, h, Option.toList_some, List.flatten_append, List.flatten_singleton,
      List.length_append] at hmono
    omega
  · intro hle
    exact (length_flatten_take_mono pieces hle).trans (Nat.le_add_right _ _)

/-- A piece goes if the line of the number before goes, and each of the first two pieces also goes
with the line of its own number. -/
lemma gonePiece_iff {lines : List ℕ} {number : ℕ} :
    gonePiece lines number = true ↔
      (∃ line ∈ lines, line + 1 = number) ∨ number ∈ lines ∧ number < 2 := by
  have hpiece : ∀ line, firstPiece line ≤ number ∧ number < line + 2 ↔
      line + 1 = number ∨ line = number ∧ number < 2 := by
    intro line
    unfold firstPiece
    split_ifs <;> omega
  simp only [gonePiece, List.any_eq_true, Bool.and_eq_true, decide_eq_true_eq, hpiece]
  constructor
  · rintro ⟨line, hmem, hbefore | ⟨rfl, hfirst⟩⟩
    · exact .inl ⟨line, hmem, hbefore⟩
    · exact .inr ⟨hmem, hfirst⟩
  · rintro (⟨line, hmem, hbefore⟩ | ⟨hmem, hfirst⟩)
    · exact ⟨line, hmem, .inl hbefore⟩
    · exact ⟨number, hmem, .inr ⟨rfl, hfirst⟩⟩

section Pieces

variable {text first second : List Char} {behind : List (List Char)}

lemma flatten_linePieces (first second : List Char) (behind : List (List Char)) :
    (linePieces first second behind).flatten = ['\n'].intercalate (first :: second :: behind) := by
  rw [intercalate_cons_eq]
  simp [linePieces]

/-- **What the deletion of a line takes out**, in pieces. -/
lemma deletedRange_eq (feeds : OnlyFeeds text)
    (h : (splitLines text).map lineContent = first :: second :: behind) {line : ℕ}
    (hline : line < (splitLines text).length) :
    deletedRange text line =
      (((linePieces first second behind).take (firstPiece line)).flatten.length,
        ((linePieces first second behind).take (line + 2)).flatten.length) := by
  have hlength := congrArg List.length h
  rw [List.length_map, List.length_cons, List.length_cons] at hlength
  have hstop : ∀ number < behind.length + 1, lineStop text (number + 1) =
      ((linePieces first second behind).take (number + 3)).flatten.length := by
    intro number hnumber
    rw [lineStop_eq_length feeds (by omega), h, List.take_succ_cons, List.take_succ_cons,
      intercalate_cons_eq, List.map_cons, List.map_take]
    simp [linePieces]
  have hstopZero : lineStop text 0 = ((linePieces first second behind).take 1).flatten.length := by
    rw [lineStop_eq_length feeds (by omega), h]
    simp [linePieces]
  have hstartOne : lineStart text 1 = ((linePieces first second behind).take 2).flatten.length := by
    have hone := hstop 0 (by omega)
    have hsecond : ((splitLines text).map lineContent)[1]? = some second := by rw [h]; rfl
    rw [List.getElem?_map, Option.map_eq_some_iff] at hsecond
    obtain ⟨whole, hwhole, hcontent⟩ := hsecond
    rw [lineStop_eq hwhole, hcontent] at hone
    simp only [linePieces, List.take_succ_cons, List.take_zero, List.flatten_cons, List.flatten_nil,
      List.length_append] at hone ⊢
    omega
  match line with
  | 0 =>
    rw [deletedRange_zero (by omega), hstartOne]
    rfl
  | 1 =>
    rw [deletedRange_succ, hstop 0 (by omega), hstopZero]
    rfl
  | line + 2 =>
    rw [deletedRange_succ, hstop (line + 1) (by omega), hstop line (by omega), firstPiece,
      if_neg (by omega)]

/-- The characters that the deletion of a line covers. -/
lemma clears_lineDeletion (room : text.length ≤ Offset.greatest.toNat) {line : ℕ}
    (hline : line < (splitLines text).length) (offset : ℕ) :
    (lineDeletion text line).clears (offset + 1) =
      decide ((deletedRange text line).1 ≤ offset ∧ offset < (deletedRange text line).2) := by
  obtain ⟨order, inside⟩ := deletedRange_le hline
  rw [lineDeletion, Edit.clears, Offset.toNat_ofNat_of_le (order.trans (inside.trans room)),
    Offset.toNat_ofNat_of_le (inside.trans room)]
  simp only [Nat.lt_succ_iff, Nat.succ_le_iff, Bool.decide_and]

/-- **The deletions of some lines leave pieces** of the text. -/
lemma spared_covers (feeds : OnlyFeeds text)
    (h : (splitLines text).map lineContent = first :: second :: behind) {lines : List ℕ}
    (listed : ∀ line ∈ lines, line < (splitLines text).length)
    (room : text.length ≤ Offset.greatest.toNat) :
    spared (Batch.covers ⟨lines.map (lineDeletion text)⟩) 0 text =
      (spared (gonePiece lines) 0 (linePieces first second behind)).flatten := by
  have htext : (linePieces first second behind).flatten = text := by
    rw [flatten_linePieces, ← h, intercalate_map_lineContent feeds]
  have hpieces : spared (Batch.covers ⟨lines.map (lineDeletion text)⟩) 0
      (linePieces first second behind).flatten =
        (spared (gonePiece lines) 0 (linePieces first second behind)).flatten := by
    apply spared_flatten
    intro number piece hpiece index hindex
    have hafter := length_flatten_take_le_iff hpiece hindex
    rw [Nat.zero_add, Nat.zero_add, Batch.covers, List.any_map, gonePiece, Bool.eq_iff_iff,
      List.any_eq_true, List.any_eq_true]
    refine exists_congr fun line => and_congr_right fun hmem => ?_
    rw [Function.comp_apply, clears_lineDeletion room (listed line hmem),
      deletedRange_eq feeds h (listed line hmem)]
    simp only [hafter, ← Nat.not_le, Bool.decide_and]
  rwa [htext] at hpieces

/-- The pieces that are left are the lines that are not listed. If the first two lines are, then the
line feed of the third one stands first. -/
lemma flatten_spared_linePieces (lines : List ℕ) :
    (spared (gonePiece lines) 0 (linePieces first second behind)).flatten =
      ['\n'].intercalate ((if 0 ∈ lines ∧ 1 ∈ lines then [[]] else []) ++
        spared (fun line => decide (line ∈ lines)) 0 (first :: second :: behind)) := by
  have hzero : gonePiece lines 0 = decide (0 ∈ lines) := by
    rw [Bool.eq_iff_iff, gonePiece_iff]
    simp
  have hone : gonePiece lines 1 = decide (0 ∈ lines ∨ 1 ∈ lines) := by
    rw [Bool.eq_iff_iff, gonePiece_iff]
    simp
  have htwo : gonePiece lines 2 = decide (1 ∈ lines) := by
    rw [Bool.eq_iff_iff, gonePiece_iff]
    simp
  have hrest : spared (gonePiece lines) 3 (behind.map ('\n' :: ·)) =
      (spared (fun line => decide (line ∈ lines)) 2 behind).map ('\n' :: ·) := by
    rw [spared_map]
    congr 1
    apply spared_congr
    intro index _
    have hshift : ∀ line, line + 1 = 3 + index ↔ line = 2 + index := by omega
    have hfar : ¬ 3 + index < 2 := by omega
    rw [Bool.eq_iff_iff, gonePiece_iff]
    simp [hshift, hfar]
  simp only [linePieces, spared, hzero, hone, htwo, Nat.reduceAdd, hrest]
  by_cases hfirst : 0 ∈ lines <;> by_cases hsecond : 1 ∈ lines <;>
    simp [hfirst, hsecond, intercalate_cons_eq]

/-- **The lines that are left** of a text whose only breaks are line feeds: those that are not
listed, behind an empty line if the first two lines are listed. -/
lemma map_lineContent_spared (feeds : OnlyFeeds text) {lines : List ℕ}
    (listed : ∀ line ∈ lines, line < (splitLines text).length)
    (others : ∃ line < (splitLines text).length, line ∉ lines)
    (room : text.length ≤ Offset.greatest.toNat) :
    (splitLines (spared (Batch.covers ⟨lines.map (lineDeletion text)⟩) 0 text)).map lineContent =
      (if 0 ∈ lines ∧ 1 ∈ lines then [[]] else []) ++
        spared (fun line => decide (line ∈ lines)) 0 ((splitLines text).map lineContent) := by
  obtain ⟨other, hother, hkept⟩ := others
  rcases h : (splitLines text).map lineContent with _ | ⟨first, _ | ⟨second, behind⟩⟩
  · exact absurd (List.map_eq_nil_iff.mp h) (splitLines_ne_nil text)
  · -- the only line is not listed
    have hone : (splitLines text).length = 1 := by simpa using congrArg List.length h
    have hnone : lines = [] := by
      apply List.eq_nil_iff_forall_not_mem.mpr
      intro line hmem
      have := listed line hmem
      obtain rfl : line = other := by omega
      exact hkept hmem
    subst hnone
    have hcovers : spared (Batch.covers ⟨[].map (lineDeletion text)⟩) 0 text =
        if false then [] else text := spared_eq_ite fun _ _ => rfl
    rw [hcovers, if_neg Bool.false_ne_true, h]
    simp [spared]
  · rw [spared_covers feeds h listed room, flatten_spared_linePieces, ← h]
    apply map_lineContent_intercalate
    · intro line hmem
      rcases List.mem_append.mp hmem with hempty | hleft
      · split_ifs at hempty
        · obtain rfl := List.mem_singleton.mp hempty
          exact .nil
        · cases hempty
      · obtain ⟨number, -, hnumber⟩ := mem_spared.mp hleft
        obtain ⟨whole, hwhole, rfl⟩ := List.mem_map.mp (List.mem_of_getElem? hnumber)
        exact (areLines_splitLines text).plain_of_mem hwhole
    · have hother' : other < ((splitLines text).map lineContent).length := by simpa using hother
      have hmem : ((splitLines text).map lineContent)[other] ∈
          spared (fun line => decide (line ∈ lines)) 0 ((splitLines text).map lineContent) :=
        mem_spared.mpr ⟨other, decide_eq_false hkept, List.getElem?_eq_getElem hother'⟩
      exact List.append_ne_nil_of_right_ne_nil _ (List.ne_nil_of_mem hmem)

end Pieces

/-! ## The document that is left -/

section Apply

variable {D : Type} [Document D] [LawfulDocument D] [LawfulLines D]

/-- The deletion of several lines is recorded and made. -/
lemma Document.exists_apply_deleteLines (document : D) {lines : List ℕ}
    (listed : ∀ line ∈ lines, line < lineCount document)
    (room : length document ≤ Offset.greatest.toNat) :
    ∃ batch final caret,
      (lines.forM (Recording.deleteLine document)).run.run {} = (.ok (), batch) ∧
      batch.apply document = (final, .ok caret) ∧
      chars final = spared (Batch.covers ⟨lines.map (lineDeletion (chars document))⟩) 0
        (chars document) := by
  have hrecorded := Recording.Records.forM
    (fun line hmem => Recording.records_deleteLine (listed line hmem)) {}
  rw [LawfulLines.lineCount_eq] at listed
  let batch : Batch := ⟨lines.map (lineDeletion (chars document))⟩
  have hedit : ∀ edit ∈ batch.edits, ∃ line < (splitLines (chars document)).length,
      edit = lineDeletion (chars document) line := by
    intro edit hmem
    obtain ⟨line, hline, rfl⟩ := List.mem_map.mp hmem
    exact ⟨line, listed line hline, rfl⟩
  have adds : ∀ edit ∈ batch.edits, edit.text = "" := by
    intro edit hmem
    obtain ⟨line, -, rfl⟩ := hedit edit hmem
    rfl
  have ordered : ∀ edit ∈ batch.edits, edit.Ordered := by
    intro edit hmem
    obtain ⟨line, hline, rfl⟩ := hedit edit hmem
    exact Offset.ofNat_le_ofNat (deletedRange_le hline).1
  have within : ∀ edit ∈ batch.edits, edit.Within (length document) := by
    intro edit hmem
    obtain ⟨line, hline, rfl⟩ := hedit edit hmem
    have hinside := (deletedRange_le hline).2
    rw [LawfulDocument.length_eq] at room ⊢
    rw [Edit.Within, lineDeletion, Edit.stop, Offset.toNat_ofNat_of_le (hinside.trans room)]
    exact hinside
  obtain ⟨final, caret, happly, hchars⟩ :=
    batch.exists_apply_deletions document adds ordered within room
  refine ⟨batch, final, caret, ?_, happly, hchars⟩
  rw [hrecorded, List.nil_append, ← List.map_eq_flatMap]

/-- **The deletion of several lines leaves the other lines** of a document whose only breaks are
line feeds, each with its content and in order. If the first two lines are both deleted, an empty
line stands in front of them: the ranges of these two have the line feed between them in common, and
the one behind them is in neither.

**Proof sketch.** What no range covers is left. The text is cut into pieces, so that each range
covers some pieces and nothing of the others: each line with the line feed in front, but the second
line without, as its line feed also belongs to the range of the first line. The pieces that are left
are the other lines, each behind a line feed but the first of them. -/
theorem Document.apply_deleteLines (document : D) (lines : List ℕ)
    (feeds : OnlyFeeds (chars document)) (listed : ∀ line ∈ lines, line < lineCount document)
    (others : ∃ line < lineCount document, line ∉ lines)
    (room : length document ≤ Offset.greatest.toNat) :
    ∃ batch final caret,
      (lines.forM (Recording.deleteLine document)).run.run {} = (.ok (), batch) ∧
      batch.apply document = (final, .ok caret) ∧
      lineTexts final = (if 0 ∈ lines ∧ 1 ∈ lines then [""] else []) ++
        ((List.range (lineCount document)).filter (· ∉ lines)).filterMap (line? document) := by
  obtain ⟨batch, final, caret, hrecorded, happly, hchars⟩ :=
    exists_apply_deleteLines document listed room
  refine ⟨batch, final, caret, hrecorded, happly, ?_⟩
  rw [LawfulLines.lineCount_eq] at listed others
  rw [LawfulDocument.length_eq] at room
  have hline : ∀ number,
      ((splitLines (chars document)).map (String.ofList ∘ lineContent))[number]? =
        line? document number := by
    intro number
    rw [line?_eq, List.getElem?_map]
    rfl
  have hleft := congrArg (List.map String.ofList)
    (map_lineContent_spared feeds listed others room)
  rw [← hchars, List.map_map, List.map_append, ← spared_map, List.map_map, spared_eq_filterMap]
    at hleft
  simp only [hline, List.length_map] at hleft
  rw [lineTexts_eq, LawfulLines.lineCount_eq]
  refine hleft.trans ?_
  split_ifs <;> simp

/-- The first two lines of five and the fourth one are deleted, in another order. -/
theorem Document.apply_deleteLines_first_two :
    let document : FlatText := ⟨"a\nb\nc\nd\ne"⟩
    OnlyFeeds (chars document) ∧ (∀ line ∈ [3, 1, 0], line < lineCount document) ∧
    (∃ line < lineCount document, line ∉ [3, 1, 0]) ∧
    length document ≤ Offset.greatest.toNat ∧
    ∃ batch final caret,
      ([3, 1, 0].forM (Recording.deleteLine document)).run.run {} = (.ok (), batch) ∧
      batch.apply document = (final, .ok caret) ∧ lineTexts final = ["", "c", "e"] := by
  intro document
  have feeds : OnlyFeeds (chars document) := by decide
  have listed : ∀ line ∈ [3, 1, 0], line < lineCount document := by decide
  have others : ∃ line < lineCount document, line ∉ [3, 1, 0] := ⟨2, by decide, by decide⟩
  have room : length document ≤ Offset.greatest.toNat := by decide
  obtain ⟨batch, final, caret, hrecorded, happly, htexts⟩ :=
    apply_deleteLines document [3, 1, 0] feeds listed others room
  have hleft : ((List.range (lineCount document)).filter (· ∉ [3, 1, 0])).filterMap
      (line? document) = ["c", "e"] := by decide
  rw [hleft, if_pos (by decide)] at htexts
  exact ⟨feeds, listed, others, room, batch, final, caret, hrecorded, happly, htexts⟩

/-- Not only the other lines are left: without the first two of three lines, an empty line stands in
front of the third one. -/
theorem Document.not_forall_lineTexts_deleteLines :
    ¬ ∀ (document : FlatText) (lines : List ℕ), OnlyFeeds (chars document) → lines.Nodup →
      (∀ line ∈ lines, line < lineCount document) →
      (∃ line < lineCount document, line ∉ lines) →
      length document ≤ Offset.greatest.toNat →
      ∃ batch final caret,
        (lines.forM (Recording.deleteLine document)).run.run {} = (.ok (), batch) ∧
        batch.apply document = (final, .ok caret) ∧
        lineTexts final =
          ((List.range (lineCount document)).filter (· ∉ lines)).filterMap (line? document) := by
  intro hall
  let document : FlatText := ⟨"one\ntwo\nthree"⟩
  have listed : ∀ line ∈ [0, 1], line < lineCount document := by decide
  have room : length document ≤ Offset.greatest.toNat := by decide
  obtain ⟨batch, final, caret, hrecorded, happly, htexts⟩ :=
    hall document [0, 1] (by decide) (by decide) listed ⟨2, by decide, by decide⟩ room
  obtain ⟨batch', final', caret', hrecorded', happly', hchars⟩ :=
    exists_apply_deleteLines document listed room
  obtain rfl := (Prod.mk.inj (hrecorded.symm.trans hrecorded')).2
  obtain rfl := (Prod.mk.inj (happly.symm.trans happly')).1
  have hleft : (splitLines (chars final)).map (fun whole => String.ofList (lineContent whole)) =
      ["", "three"] := by
    rw [hchars]
    decide
  have hothers : ((List.range (lineCount document)).filter (· ∉ [0, 1])).filterMap
      (line? document) = ["three"] := by decide
  rw [lineTexts_eq, hleft, hothers] at htexts
  exact absurd htexts (by decide)

end Apply

end EditBatch
