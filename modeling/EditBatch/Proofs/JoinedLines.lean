import EditBatch.Proofs.Lines
set_option autoImplicit false

/-!
# Joined lines

If the break of a line goes, and the content of the line behind it, then the break of the second
line ends the first one. The other lines stay what they are, with one exception: where the first of
the two is empty, what stands in front of its break may be a carriage return, and what comes to
stand behind it a line feed. These two then are one break.

## Main definitions

* `EditBatch.lineBreak` — the break at the end of a line.
* `EditBatch.Meet` — whether a carriage return and a line feed meet.

## Main results

* `EditBatch.AreLines.replace_behind` — other lines can come behind lines.
* `EditBatch.AreLines.joined` — two lines are joined, and the others stay.
* `EditBatch.AreLines.exists_of_meet` — where breaks meet, and what lines are left then.
-/

namespace EditBatch

/-- The break at the end of a line, if it has one. -/
def lineBreak (line : List Char) : List Char := line.drop (lineContent line).length

lemma lineContent_append_lineBreak (line : List Char) :
    lineContent line ++ lineBreak line = line := by
  have hcontent : lineContent line = line.take (lineContent line).length := by
    rw [length_lineContent, lineContent]
  rw [lineBreak]
  conv_lhs => rw [hcontent]
  rw [List.length_take_of_le (by rw [length_lineContent]; omega), List.take_append_drop]

lemma lineBreak_append {content brk : List Char} (plain : Plain content) (ends : IsBreak brk) :
    lineBreak (content ++ brk) = brk := by
  rw [lineBreak, lineContent_append plain ends, List.drop_left]

lemma lineBreak_of_plain {content : List Char} (plain : Plain content) :
    lineBreak content = [] := by
  rw [lineBreak, lineContent_of_plain plain, List.drop_length]

/-- Whether a carriage return stands in front and a line feed behind. -/
def Meet (front behind : List Char) : Prop :=
  front.getLast? = some '\r' ∧ behind.head? = some '\n'

namespace AreLines

variable {line : List Char} {rest : List (List Char)}

/-- Every line but the last ends in a break. -/
lemma exists_break (h : AreLines (line :: rest)) (hrest : rest ≠ []) :
    ∃ content brk, line = content ++ brk ∧ Plain content ∧ IsBreak brk ∧
      (brk = ['\r'] → rest.flatten.head? ≠ some '\n') ∧ AreLines rest := by
  cases h with
  | last => exact absurd rfl hrest
  | cons plain ends whole lines => exact ⟨_, _, rfl, plain, ends, whole, lines⟩

/-- Behind a line there are lines. -/
lemma tail (h : AreLines (line :: rest)) (hrest : rest ≠ []) : AreLines rest := by
  obtain ⟨-, -, -, -, -, -, lines⟩ := h.exists_break hrest
  exact lines

/-- Every line but the last goes on behind its content. -/
lemma length_lineContent_lt (h : AreLines (line :: rest)) (hrest : rest ≠ []) :
    (lineContent line).length < line.length := by
  obtain ⟨content, brk, rfl, plain, ends, -⟩ := h.exists_break hrest
  have := List.length_pos_iff.mpr ends.ne_nil
  rw [lineContent_append plain ends, List.length_append]
  omega

/-- Behind lines there are lines. -/
lemma of_append {front : List (List Char)} (h : AreLines (front ++ line :: rest)) :
    AreLines (line :: rest) := by
  induction front with
  | nil => exact h
  | cons first front ih =>
    rw [List.cons_append] at h
    exact ih (h.tail (by simp))

/-- Two lines are joined when the break between them and the content of the second go. -/
lemma join {next : List Char} (h : AreLines (line :: next :: rest)) :
    AreLines ((lineContent line ++ lineBreak next) :: rest) ∧
      lineContent (lineContent line ++ lineBreak next) = lineContent line := by
  cases h with
  | @cons content brk _ plain ends _ lines =>
    rw [lineContent_append plain ends]
    cases lines with
    | last plain' =>
      rw [lineBreak_of_plain plain', List.append_nil]
      exact ⟨.last plain, lineContent_of_plain plain⟩
    | cons plain' ends' whole' lines' =>
      rw [lineBreak_append plain' ends']
      exact ⟨.cons plain ends' whole' lines', lineContent_append plain ends'⟩

/-- The content of a line has no break. -/
lemma plain_lineContent (h : AreLines (line :: rest)) : Plain (lineContent line) := by
  cases h with
  | last plain => rwa [lineContent_of_plain plain]
  | cons plain ends => rwa [lineContent_append plain ends]

/-- **Other lines can come behind lines**, unless breaks meet.

**Proof sketch.** Induction on the lines in front. The break of a line is still whole if what
stands behind it still starts as it did. It does if there is a line between. Otherwise it is the
last of the lines in front, and then breaks meet or it is whole. -/
lemma replace_behind {front rest : List (List Char)} (h : AreLines (front ++ rest))
    (hrest : rest ≠ []) {behind : List (List Char)} (hbehind : AreLines behind)
    (apart : ¬ Meet front.flatten behind.flatten) : AreLines (front ++ behind) := by
  induction front with
  | nil => exact hbehind
  | cons first front ih =>
    rw [List.cons_append] at h ⊢
    obtain ⟨content, brk, rfl, plain, ends, whole, lines⟩ := h.exists_break (by simp [hrest])
    refine .cons plain ends (fun hcr hhead => ?_) (ih lines fun hmeet => apart ?_)
    · have hwhole := whole hcr
      rw [List.flatten_append] at hwhole hhead
      rcases hbetween : front.flatten with _ | ⟨c, between⟩
      · -- `brk` is the last break in front
        rw [hbetween, List.nil_append] at hhead
        apply apart
        rw [List.flatten_cons, hbetween, hcr, List.append_nil]
        exact ⟨by simp, hhead⟩
      · rw [hbetween] at hwhole hhead
        exact hwhole hhead
    · obtain ⟨hlast, hhead⟩ := hmeet
      refine ⟨?_, hhead⟩
      rw [List.flatten_cons, List.getLast?_append, hlast]
      rfl

/-- **Two lines of a text are joined**, and the others stay, unless breaks meet. -/
lemma joined {front : List (List Char)} {next : List Char}
    (h : AreLines (front ++ line :: next :: rest))
    (apart : ¬ Meet (front.flatten ++ lineContent line) (lineBreak next ++ rest.flatten)) :
    AreLines (front ++ (lineContent line ++ lineBreak next) :: rest) := by
  refine h.replace_behind (List.cons_ne_nil line _) h.of_append.join.1 fun hmeet => apart ?_
  rw [List.flatten_cons, List.append_assoc] at hmeet
  rcases hcontent : lineContent line with _ | ⟨c, content⟩
  · rw [hcontent, List.nil_append] at hmeet
    rwa [List.append_nil]
  · -- the content of a line does not start with a line feed
    have hplain := h.of_append.plain_lineContent
    rw [hcontent] at hplain hmeet
    obtain rfl : c = '\n' := by simpa using hmeet.2
    exact absurd isLineBreak_lf hplain.head

/-- Breaks meet where an empty line stands between a carriage return and a line that ends in a
line feed. The two are one break then. -/
lemma exists_of_meet {front : List (List Char)} {next : List Char}
    (h : AreLines (front ++ line :: next :: rest))
    (meet : Meet (front.flatten ++ lineContent line) (lineBreak next ++ rest.flatten)) :
    ∃ ahead content, front = ahead ++ [content ++ ['\r']] ∧ Plain content ∧
      lineContent line = [] ∧ lineBreak next = ['\n'] ∧
      AreLines (ahead ++ (content ++ ['\r', '\n']) :: rest) := by
  obtain ⟨hlast, hhead⟩ := meet
  have hempty : lineContent line = [] := by
    by_contra hne
    rw [List.getLast?_append_of_ne_nil _ hne] at hlast
    exact h.of_append.plain_lineContent _ (List.mem_of_getLast? hlast) isLineBreak_cr
  rw [hempty, List.append_nil] at hlast
  have hfront : front ≠ [] := by
    rintro rfl
    simp at hlast
  obtain ⟨ahead, previous, rfl⟩ := (List.eq_nil_or_concat' front).resolve_left hfront
  rw [List.append_assoc, List.singleton_append] at h
  obtain ⟨content, brk, rfl, plain, ends, -, lines⟩ := h.of_append.exists_break (by simp)
  have hcr : brk = ['\r'] := by
    rw [List.flatten_append, List.flatten_singleton, ← List.append_assoc,
      List.getLast?_append_of_ne_nil _ ends.ne_nil] at hlast
    cases ends with
    | char hc => simpa using hlast
    | crlf => simp at hlast
  obtain ⟨hlf, hrest⟩ : lineBreak next = ['\n'] ∧ AreLines rest := by
    cases lines.tail (by simp) with
    | last plain' =>
      rw [lineBreak_of_plain plain'] at hhead
      simp at hhead
    | cons plain' ends' _ lines =>
      rw [lineBreak_append plain' ends'] at hhead ⊢
      refine ⟨?_, lines⟩
      cases ends' with
      | char hc => simpa using hhead
      | crlf => simp at hhead
  refine ⟨ahead, content, by rw [hcr], plain, hempty, hlf, ?_⟩
  refine h.replace_behind (List.cons_ne_nil _ _)
    (.cons plain .crlf (fun hcr => by cases hcr) hrest) fun hmeet => ?_
  -- what follows the lines in front starts with `content` or a carriage return
  rcases content with _ | ⟨c, content⟩
  · simpa using hmeet.2
  · obtain rfl : c = '\n' := by simpa using hmeet.2
    exact plain.head isLineBreak_lf

end AreLines

end EditBatch
