import EditBatch.LineBreak
import Mathlib.Data.List.Basic
import Mathlib.Data.Nat.Basic
import Mathlib.Tactic.Common
set_option autoImplicit false

/-!
# The lines of a text

A list of lines is that of a text if each line but the last ends in a break, no line has a break
before its end, and no break is cut in two. There is only one such list for a text, so that a text
put together from lines falls into these lines again, if no carriage return comes to stand in front
of a line feed.

## Main definitions

* `EditBatch.IsBreak`, `EditBatch.Plain` — breaks, and texts without any.
* `EditBatch.AreLines` — the lists of lines that a text can fall into.
* `EditBatch.lineContent` — a line without its break.
* `EditBatch.startsFrom` — where lines start.

## Main results

* `EditBatch.areLines_splitLines`, `EditBatch.AreLines.splitLines_flatten` — the lines of a text are
  the only list of lines that adds up to it.
* `EditBatch.lineStarts_eq` — where the lines of a text start.
-/

namespace EditBatch

/-! ## Breaks -/

/-- The breaks: a character that ends a line, or a carriage return and a line feed. -/
inductive IsBreak : List Char → Prop
  | char {c : Char} (h : IsLineBreak c) : IsBreak [c]
  | crlf : IsBreak ['\r', '\n']

/-- Whether a text has no break. -/
def Plain (content : List Char) : Prop := ∀ c ∈ content, ¬ IsLineBreak c

lemma Plain.nil : Plain [] := by
  intro c hmem
  cases hmem

lemma Plain.cons {c : Char} {content : List Char} (hc : ¬ IsLineBreak c) (h : Plain content) :
    Plain (c :: content) := by
  intro d hmem
  rcases List.mem_cons.mp hmem with rfl | hmem
  · exact hc
  · exact h d hmem

lemma Plain.head {c : Char} {content : List Char} (h : Plain (c :: content)) : ¬ IsLineBreak c :=
  h c List.mem_cons_self

lemma Plain.tail {c : Char} {content : List Char} (h : Plain (c :: content)) : Plain content :=
  fun d hmem => h d (List.mem_cons_of_mem c hmem)

lemma isLineBreak_cr : IsLineBreak '\r' := by decide

lemma isLineBreak_lf : IsLineBreak '\n' := by decide

lemma IsBreak.ne_nil {brk : List Char} (h : IsBreak brk) : brk ≠ [] := by
  cases h <;> simp

/-- A break at the end of a line is measured by what stands last. -/
lemma breakLength_append {content brk : List Char} (plain : Plain content) (h : IsBreak brk) :
    breakLength (content ++ brk) = brk.length := by
  cases h with
  | char hc =>
    rw [breakLength, List.reverse_append, List.reverse_singleton, List.singleton_append]
    split
    · rename_i rest hsplit
      -- a carriage return in front would be a break of its own
      obtain ⟨-, hrest⟩ := List.cons.inj hsplit
      have hmem : '\r' ∈ content := by
        rw [← List.mem_reverse, hrest]
        exact List.mem_cons_self
      exact absurd isLineBreak_cr (plain '\r' hmem)
    · rename_i hsplit
      obtain ⟨rfl, -⟩ := List.cons.inj hsplit
      rw [if_pos hc]
      rfl
    · rename_i hsplit
      cases hsplit
  | crlf => simp [breakLength]

lemma breakLength_of_plain {content : List Char} (plain : Plain content) :
    breakLength content = 0 := by
  have hlast : ∀ c rest, content.reverse = c :: rest → ¬ IsLineBreak c := by
    intro c rest hreverse
    apply plain
    rw [← List.mem_reverse, hreverse]
    exact List.mem_cons_self
  rw [breakLength]
  split
  · rename_i rest hsplit
    exact absurd isLineBreak_lf (hlast _ _ hsplit)
  · rename_i c rest _ hsplit
    rw [if_neg (hlast c rest hsplit)]
  · rfl

/-- A break is measured on the last two characters of a line. -/
lemma breakLength_of_reverse {line rest : List Char} {c d : Char}
    (h : line.reverse = c :: d :: rest) :
    breakLength line = if c = '\n' ∧ d = '\r' then 2 else if IsLineBreak c then 1 else 0 := by
  rw [breakLength, h]
  split
  · rename_i hsplit
    cases hsplit
    rfl
  · rename_i hcrlf hsplit
    cases hsplit
    have hne : ¬ (c = '\n' ∧ d = '\r') := by
      rintro ⟨rfl, rfl⟩
      exact hcrlf rest rfl rfl
    rw [if_neg hne]
  · rename_i hsplit
    cases hsplit

/-- Only the last two characters of a line can belong to its break. -/
lemma breakLength_drop (line : List Char) :
    breakLength (line.drop (line.length - 2)) = breakLength line := by
  rcases hreverse : line.reverse with _ | ⟨c, _ | ⟨d, rest⟩⟩
  · rw [List.reverse_eq_nil_iff.mp hreverse]
    rfl
  · rw [List.reverse_eq_cons_iff.mp hreverse]
    rfl
  · have hline : line = rest.reverse ++ [d, c] := by
      rw [← List.reverse_reverse line, hreverse]
      simp
    have hdrop : line.drop (line.length - 2) = [d, c] := by
      rw [hline]
      exact List.drop_left' (by simp)
    rw [breakLength_of_reverse hreverse, hdrop]
    exact breakLength_of_reverse (show [d, c].reverse = [c, d] from rfl)

/-- A line without the break at its end. -/
def lineContent (line : List Char) : List Char := line.take (line.length - breakLength line)

lemma length_lineContent (line : List Char) :
    (lineContent line).length = line.length - breakLength line := by
  simp [lineContent]

lemma lineContent_append {content brk : List Char} (plain : Plain content) (h : IsBreak brk) :
    lineContent (content ++ brk) = content := by
  rw [lineContent, breakLength_append plain h, List.length_append, Nat.add_sub_cancel,
    List.take_left]

lemma lineContent_of_plain {content : List Char} (plain : Plain content) :
    lineContent content = content := by
  rw [lineContent, breakLength_of_plain plain, Nat.sub_zero, List.take_length]

/-! ## Lists of lines -/

/-- The lists of lines that a text can fall into. -/
inductive AreLines : List (List Char) → Prop
  /-- The last line has no break. -/
  | last {content : List Char} (plain : Plain content) : AreLines [content]
  /-- Every other line ends in a break, which does not go on in the next line. -/
  | cons {content brk : List Char} {rest : List (List Char)} (plain : Plain content)
      (ends : IsBreak brk) (whole : brk = ['\r'] → rest.flatten.head? ≠ some '\n')
      (lines : AreLines rest) : AreLines ((content ++ brk) :: rest)

/-- A break ends the first line. -/
lemma splitLines_append {content brk rest : List Char} (plain : Plain content) (ends : IsBreak brk)
    (whole : brk = ['\r'] → rest.head? ≠ some '\n') :
    splitLines (content ++ brk ++ rest) = (content ++ brk) :: splitLines rest := by
  induction content with
  | nil =>
    cases ends with
    | @char c hc =>
      have hwhole : ∀ behind, c = '\r' → rest = '\n' :: behind → False := by
        rintro behind rfl rfl
        exact whole rfl rfl
      rw [List.nil_append, List.singleton_append, splitLines.eq_3 _ _ hwhole, if_pos hc]
    | crlf => rfl
  | cons c content ih =>
    have hc := plain.head
    have hwhole : ∀ behind, c = '\r' → content ++ brk ++ rest = '\n' :: behind → False := by
      rintro behind rfl -
      exact hc isLineBreak_cr
    rw [List.cons_append, List.cons_append, splitLines.eq_3 _ _ hwhole, if_neg hc, ih plain.tail]
    rfl

lemma splitLines_of_plain {content : List Char} (plain : Plain content) :
    splitLines content = [content] := by
  induction content with
  | nil => rfl
  | cons c content ih =>
    have hc := plain.head
    have hwhole : ∀ behind, c = '\r' → content = '\n' :: behind → False := by
      rintro behind rfl -
      exact hc isLineBreak_cr
    rw [splitLines.eq_3 _ _ hwhole, if_neg hc, ih plain.tail]
    rfl

lemma AreLines.consToFirst {c : Char} (hc : ¬ IsLineBreak c) {lines : List (List Char)}
    (h : AreLines lines) : AreLines (consToFirst c lines) := by
  cases h with
  | last plain => exact .last (plain.cons hc)
  | cons plain ends whole lines => exact .cons (plain.cons hc) ends whole lines

/-- **A text falls into lines.** -/
theorem areLines_splitLines (text : List Char) : AreLines (splitLines text) := by
  fun_induction splitLines text with
  | case1 => exact .last .nil
  | case2 rest ih => exact .cons .nil .crlf (fun hcr => by cases hcr) ih
  | case3 c rest hwhole hc ih =>
    refine .cons .nil (.char hc) (fun hcr hhead => ?_) ih
    rw [flatten_splitLines] at hhead
    obtain ⟨behind, hrest⟩ := List.head?_eq_some_iff.mp hhead
    exact hwhole behind (List.cons.inj hcr).1 hrest
  | case4 c rest _ hc ih => exact ih.consToFirst hc

namespace AreLines

variable {lines : List (List Char)}

lemma of_splitLines_eq {text : List Char} (h : splitLines text = lines) : AreLines lines :=
  h ▸ areLines_splitLines text

/-- **Lines that are put together fall apart again** into the same lines. -/
theorem splitLines_flatten (h : AreLines lines) : splitLines lines.flatten = lines := by
  induction h with
  | last plain => rw [List.flatten_singleton, splitLines_of_plain plain]
  | cons plain ends whole lines ih => rw [List.flatten_cons, splitLines_append plain ends whole, ih]

lemma ne_nil (h : AreLines lines) : lines ≠ [] := by
  cases h <;> simp

end AreLines

/-! ## Where lines start -/

/-- Where some lines start, the first of them at `offset`. -/
def startsFrom (offset : ℕ) : List (List Char) → List ℕ
  | [] => []
  | line :: rest => offset :: startsFrom (offset + line.length) rest

@[simp] lemma length_startsFrom (offset : ℕ) (lines : List (List Char)) :
    (startsFrom offset lines).length = lines.length := by
  induction lines generalizing offset with
  | nil => rfl
  | cons line rest ih => simp [startsFrom, ih]

/-- A line starts behind all lines in front of it. -/
lemma getElem?_startsFrom (offset : ℕ) {lines : List (List Char)} {number : ℕ}
    (h : number < lines.length) :
    (startsFrom offset lines)[number]? = some (offset + (lines.take number).flatten.length) := by
  induction lines generalizing offset number with
  | nil => simp at h
  | cons line rest ih =>
    cases number with
    | zero => simp [startsFrom]
    | succ number =>
      have hnumber : number < rest.length := by simpa using h
      rw [startsFrom, List.getElem?_cons_succ, ih _ hnumber, List.take_succ_cons,
        List.flatten_cons, List.length_append, Nat.add_assoc]

lemma cons_lineStartsAfter (offset : ℕ) (text : List Char) :
    offset :: lineStartsAfter offset text = startsFrom offset (splitLines text) := by
  fun_induction splitLines text generalizing offset with
  | case1 => rfl
  | case2 rest ih =>
    rw [lineStartsAfter, ih, startsFrom]
    rfl
  | case3 c rest hwhole hc ih =>
    rw [lineStartsAfter.eq_3 _ _ _ hwhole, if_pos hc, ih, startsFrom]
    rfl
  | case4 c rest hwhole hc ih =>
    have hrest := ih (offset + 1)
    rw [lineStartsAfter.eq_3 _ _ _ hwhole, if_neg hc]
    rcases hlines : splitLines rest with _ | ⟨line, lines⟩
    · exact absurd hlines (splitLines_ne_nil rest)
    · rw [hlines, startsFrom, List.cons.injEq] at hrest
      rw [consToFirst, startsFrom, hrest.2, List.length_cons]
      congr 2
      omega

/-- **The starts of the lines of a text**, one for each line. -/
lemma lineStarts_eq (text : List Char) : lineStarts text = startsFrom 0 (splitLines text) :=
  cons_lineStartsAfter 0 text

end EditBatch
