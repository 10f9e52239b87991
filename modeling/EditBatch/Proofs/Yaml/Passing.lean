import EditBatch.Yaml.Writer
import Mathlib.Data.Bool.AllAny
import Mathlib.Data.List.Basic
import Mathlib.Tactic.Common
set_option autoImplicit false

/-!
# Passing a text that comes next

Where a reader stands behind a written text depends on the text alone: it has passed its characters
one by one. Readers skip words and breaks in larger steps, and all these come down to this one.

## Main definitions

* `EditBatch.Yaml.State.pass` — the state behind a text that comes next.
* `EditBatch.Yaml.StartsToken` — the characters at which a token can start.
* `EditBatch.Yaml.Outside` — what can follow an entry of a block.

## Main results

* `EditBatch.Yaml.State.rest_pass` — what is left behind a text.
* `EditBatch.Yaml.State.skipMany_eq_pass` — a word is passed in one step.
* `EditBatch.Yaml.State.toToken_spaces`, `EditBatch.Yaml.State.toToken_break` — the way to the next
  token.
-/

namespace EditBatch.Yaml

/-! ## Characters -/

/-- The only blank among the characters that need no escape is the space. -/
lemma eq_space_of_isBlank {c : Char} (printable : isPrintable c = true) (h : isBlank c = true) :
    c = ' ' := by
  simp only [isBlank, Bool.or_eq_true, beq_iff_eq] at h
  refine h.resolve_right ?_
  rintro rfl
  exact absurd printable (by decide)

lemma isBlank_eq_false_of_ne_space {c : Char} (printable : isPrintable c = true) (h : c ≠ ' ') :
    isBlank c = false := by
  rw [← Bool.not_eq_true]
  exact fun hblank => h (eq_space_of_isBlank printable hblank)

/-- The breaks among the characters that need no escape are read as they stand. -/
lemma breakText_of_isPrintable {c : Char} (printable : isPrintable c = true)
    (h : isBreak c = true) (rest : List Char) : breakText (c :: rest) = [c] := by
  simp only [isBreak, Bool.or_eq_true, beq_iff_eq] at h
  rcases h with (((rfl | rfl) | rfl) | rfl) | rfl
  · exact absurd printable (by decide)
  · rfl
  · exact absurd printable (by decide)
  · rfl
  · rfl

lemma isBlank_eq_false_of_isBreak {c : Char} (h : isBreak c = true) : isBlank c = false := by
  simp only [isBreak, Bool.or_eq_true, beq_iff_eq] at h
  rcases h with (((rfl | rfl) | rfl) | rfl) | rfl <;> rfl

lemma ne_cr_of_isPrintable {c : Char} (printable : isPrintable c = true) : c ≠ '\r' := by
  rintro rfl
  exact absurd printable (by decide)

lemma isPrintable_of_mem_spaces {count : ℕ} : ∀ c ∈ spaces count, isPrintable c = true := by
  intro c hmem
  rw [List.eq_of_mem_replicate hmem]
  decide

lemma isBreak_of_mem_spaces {count : ℕ} : ∀ c ∈ spaces count, isBreak c = false := by
  intro c hmem
  rw [List.eq_of_mem_replicate hmem]
  decide

@[simp] lemma length_spaces (count : ℕ) : (spaces count).length = count := List.length_replicate

/-- Two neighbours do not have two properties that no two neighbours have. -/
lemma hasPair_cons_eq_false {first second : Char → Bool} {c : Char} {text : List Char}
    (h : hasPair first second (c :: text) = false) :
    (first c = true → ∀ d ∈ text.head?, second d = false) ∧ hasPair first second text = false := by
  rcases text with _ | ⟨d, text⟩
  · exact ⟨fun _ d hd => (nomatch hd), rfl⟩
  · rw [hasPair, Bool.or_eq_false_iff, Bool.and_eq_false_iff] at h
    refine ⟨?_, h.2⟩
    rintro hc e ⟨⟩
    exact h.1.resolve_left (by simp [hc])

/-- The characters at which a token can start. -/
def StartsToken (c : Char) : Prop := isBlank c = false ∧ isBreak c = false ∧ c ≠ '#'

instance (c : Char) : Decidable (StartsToken c) :=
  inferInstanceAs (Decidable (isBlank c = false ∧ isBreak c = false ∧ c ≠ '#'))

/-- What can follow an entry of a block: nothing, or a token that stands further left than the given
column. -/
def Outside (column : ℕ) (tail : List Char) : Prop :=
  tail = [] ∨ ∃ count c rest, tail = spaces count ++ c :: rest ∧ count < column ∧ StartsToken c

lemma Outside.mono {column more : ℕ} {tail : List Char} (h : Outside column tail)
    (hle : column ≤ more) : Outside more tail := by
  rcases h with rfl | ⟨count, c, rest, rfl, hcount, starts⟩
  · exact .inl rfl
  · exact .inr ⟨count, c, rest, rfl, Nat.lt_of_lt_of_le hcount hle, starts⟩

/-- What follows an entry starts with spaces, fewer than those in front of the parts of the
entry. -/
lemma Outside.exists_spaces {column : ℕ} {tail : List Char} (h : Outside (column + 1) tail) :
    ∃ count rest, tail = spaces count ++ rest ∧ count ≤ column ∧
      ∀ c ∈ rest.head?, StartsToken c := by
  rcases h with rfl | ⟨count, c, rest, rfl, hcount, starts⟩
  · exact ⟨0, [], rfl, Nat.zero_le _, fun c hc => nomatch hc⟩
  · refine ⟨count, c :: rest, rfl, Nat.le_of_lt_succ hcount, ?_⟩
    rintro d ⟨⟩
    exact starts

/-! ## Gaps -/

namespace Gap

variable {gap : Gap} {c : Char}

/-- A blank stands for itself unless there is a break in front of it. -/
lemma text_addBlank (h : gap.first = none) : (gap.addBlank c).text = gap.text ++ [c] := by
  simp [addBlank, text, h]

lemma first_addBlank (gap : Gap) (c : Char) : (gap.addBlank c).first = gap.first := by
  unfold addBlank
  split <;> rfl

lemma isSome_first_addBreak (gap : Gap) (text : List Char) :
    (gap.addBreak text).first.isSome = true := by
  unfold addBreak
  split
  · rfl
  · rename_i h
    rw [h]
    rfl

/-- A separator of lines or paragraphs stands for itself unless there are blanks in front of it. -/
lemma text_addBreak (hc : c ≠ '\n') (hfirst : gap.first ≠ some ['\n'])
    (hopen : gap.first = none → gap.blanks = [] ∧ gap.more = []) :
    (gap.addBreak [c]).text = gap.text ++ [c] ∧ (gap.addBreak [c]).first ≠ some ['\n'] := by
  unfold addBreak
  split
  · rename_i h
    simp [text, h, hopen h, hc]
  · rename_i h
    rw [h] at hfirst
    simp_all [text]

end Gap

namespace State

/-! ## Passing characters -/

/-- The state behind a character that comes next. -/
def passChar (state : State) (c : Char) : State :=
  if isBreak c then state.skipBreak else state.skip

/-- The state behind a text that comes next. -/
def pass (state : State) (text : List Char) : State := text.foldl passChar state

variable {state : State} {c : Char} {text rest tail : List Char}

@[simp] lemma pass_nil (state : State) : state.pass [] = state := rfl

lemma pass_cons (state : State) (c : Char) (text : List Char) :
    state.pass (c :: text) = (state.passChar c).pass text := rfl

lemma pass_append (state : State) (text more : List Char) :
    state.pass (text ++ more) = (state.pass text).pass more := List.foldl_append

lemma passChar_of_isBreak (h : isBreak c = true) : state.passChar c = state.skipBreak := if_pos h

lemma passChar_of_not_isBreak (h : isBreak c = false) : state.passChar c = state.skip := by
  rw [passChar, h]
  exact if_neg Bool.false_ne_true

lemma rest_skip (h : state.rest = c :: rest) : state.skip.rest = rest := by
  rw [skip, h, List.tail_cons]

/-- A break of one character is passed by dropping it. -/
lemma skipBreak_eq (hc : c ≠ '\r') (h : state.rest = c :: rest) :
    state.skipBreak =
      { state with
        rest := rest, line := state.line + 1, column := 0, index := state.index + 1 } := by
  fun_cases skipBreak state with
  | case1 other heq =>
    rw [h] at heq
    exact absurd (List.cons.inj heq).1 hc
  | case2 => rw [h, List.tail_cons]

lemma column_skipBreak (state : State) : state.skipBreak.column = 0 := by
  fun_cases skipBreak state <;> rfl

lemma rest_passChar (printable : isPrintable c = true) (h : state.rest = c :: rest) :
    (state.passChar c).rest = rest := by
  cases hbreak : isBreak c
  · rw [passChar_of_not_isBreak hbreak, rest_skip h]
  · rw [passChar_of_isBreak hbreak, skipBreak_eq (ne_cr_of_isPrintable printable) h]

/-- **What is left behind a text** is what follows it. -/
lemma rest_pass (printable : ∀ c ∈ text, isPrintable c = true) (h : state.rest = text ++ tail) :
    (state.pass text).rest = tail := by
  induction text generalizing state with
  | nil => exact h
  | cons c text ih =>
    obtain ⟨hc, htext⟩ := List.forall_mem_cons.mp printable
    exact ih htext (rest_passChar hc h)

/-- Where a word ends that has no break. -/
lemma column_pass (inline : ∀ c ∈ text, isBreak c = false) :
    (state.pass text).column = state.column + text.length := by
  induction text generalizing state with
  | nil => rfl
  | cons c text ih =>
    obtain ⟨hc, htext⟩ := List.forall_mem_cons.mp inline
    have hskip : state.skip.column = state.column + 1 := rfl
    rw [pass_cons, ih htext, passChar_of_not_isBreak hc, List.length_cons, hskip]
    omega

/-- A word that has no break ends on its line. -/
lemma line_pass (inline : ∀ c ∈ text, isBreak c = false) :
    (state.pass text).line = state.line ∧ (state.pass text).index = state.index + text.length := by
  induction text generalizing state with
  | nil => exact ⟨rfl, rfl⟩
  | cons c text ih =>
    obtain ⟨hc, htext⟩ := List.forall_mem_cons.mp inline
    have hskip : state.skip.line = state.line ∧ state.skip.index = state.index + 1 := ⟨rfl, rfl⟩
    obtain ⟨hline, hindex⟩ := @ih state.skip htext
    rw [pass_cons, passChar_of_not_isBreak hc, hline, hindex, List.length_cons, hskip.1, hskip.2]
    exact ⟨rfl, by omega⟩

/-- **A word is passed in one step.** -/
lemma skipMany_eq_pass (inline : ∀ c ∈ text, isBreak c = false) :
    state.skipMany text.length = state.pass text := by
  induction text generalizing state with
  | nil => rfl
  | cons c text ih =>
    obtain ⟨hc, htext⟩ := List.forall_mem_cons.mp inline
    rw [pass_cons, passChar_of_not_isBreak hc, ← ih htext, skipMany, skipMany, skip]
    simp [Nat.add_assoc, Nat.add_comm 1]

@[simp] lemma skipMany_zero (state : State) : state.skipMany 0 = state := rfl

/-- Behind a break nothing but breaks leads away from the start of a line. -/
lemma column_pass_breaks (hcolumn : state.column = 0) (hbreaks : ∀ c ∈ text, isBreak c = true) :
    (state.pass text).column = 0 := by
  induction text generalizing state with
  | nil => exact hcolumn
  | cons c text ih =>
    obtain ⟨hc, hbreaks⟩ := List.forall_mem_cons.mp hbreaks
    rw [pass_cons, passChar_of_isBreak hc]
    exact ih (column_skipBreak state) hbreaks

/-- A line is passed up to the break behind it. -/
lemma skipLine_eq_pass (inline : ∀ c ∈ text, isBreak c = false)
    (h : state.rest = text ++ tail) (htail : ∀ c ∈ tail.head?, isBreak c = true) :
    state.skipLine = state.pass text := by
  have hline : state.rest.takeWhile (fun c => !isBreak c) = text := by
    rw [h, List.takeWhile_append_of_pos fun c hmem => by rw [inline c hmem]; rfl]
    rcases tail with _ | ⟨c, tail⟩
    · exact List.append_nil text
    · rw [List.takeWhile_cons_of_neg (by simp [htail c rfl]), List.append_nil]
  rw [skipLine, hline, skipMany_eq_pass inline]

/-! ## Whether a key may start -/

@[simp] lemma rest_withFresh (state : State) (fresh : Bool) :
    (state.withFresh fresh).rest = state.rest := rfl

@[simp] lemma column_withFresh (state : State) (fresh : Bool) :
    (state.withFresh fresh).column = state.column := rfl

@[simp] lemma fresh_withFresh (state : State) (fresh : Bool) :
    (state.withFresh fresh).fresh = fresh := rfl

@[simp] lemma withFresh_withFresh (state : State) (first second : Bool) :
    (state.withFresh first).withFresh second = state.withFresh second := rfl

lemma withFresh_fresh (state : State) : state.withFresh state.fresh = state := rfl

lemma skipBreak_withFresh (state : State) (fresh : Bool) :
    (state.withFresh fresh).skipBreak = state.skipBreak.withFresh fresh := by
  unfold skipBreak
  simp only [rest_withFresh]
  split <;> rfl

lemma pass_withFresh (state : State) (fresh : Bool) (text : List Char) :
    (state.withFresh fresh).pass text = (state.pass text).withFresh fresh := by
  induction text generalizing state with
  | nil => rfl
  | cons c text ih =>
    have hchar : (state.withFresh fresh).passChar c = (state.passChar c).withFresh fresh := by
      rw [passChar, passChar]
      split
      · exact skipBreak_withFresh state fresh
      · rfl
    rw [pass_cons, pass_cons, hchar, ih]

lemma fresh_pass (state : State) (text : List Char) : (state.pass text).fresh = state.fresh := by
  have h := pass_withFresh state state.fresh text
  rw [withFresh_fresh] at h
  rw [h]
  rfl

/-! ## The way to the next token -/

/-- Documents only start and end at the start of a line. -/
lemma atMarker_eq_false (h : 0 < state.column) : state.atMarker = false := by
  rw [atMarker, beq_eq_false_iff_ne.mpr (by omega), Bool.false_and]

/-- Where a token starts there is nothing to pass. -/
lemma toToken_eq_self {flow : Bool} (h : ∀ c ∈ state.rest.head?, StartsToken c) :
    state.toToken flow = state := by
  rw [toToken]
  split
  · rfl
  · rename_i c rest heq
    obtain ⟨hblank, hbreak, hsign⟩ := h c (by rw [heq]; rfl)
    simp only [isBlank, Bool.or_eq_false_iff, beq_eq_false_iff_ne] at hblank
    rw [if_neg (by rintro (h | ⟨h, -⟩); exacts [hblank.1 h, hblank.2 h]), if_neg hsign, hbreak]
    exact if_neg Bool.false_ne_true

/-- A mark is told by the character that comes next and the gap behind it. -/
lemma atMark_eq (h : state.rest = c :: rest) (mark : Char) :
    state.atMark mark = (c == mark && atGap rest) := by
  rw [atMark, h]

/-- The way to a token leads past spaces. -/
lemma toToken_spaces {flow : Bool} {count : ℕ} (h : state.rest = spaces count ++ tail) :
    state.toToken flow = (state.pass (spaces count)).toToken flow := by
  induction count generalizing state with
  | zero => rfl
  | succ count ih =>
    have hrest : state.rest = ' ' :: (spaces count ++ tail) := h
    have hskip : state.skip.rest = spaces count ++ tail := rest_skip hrest
    rw [toToken]
    split
    · rename_i heq
      rw [hrest] at heq
      cases heq
    · rename_i c rest heq
      rw [hrest] at heq
      obtain ⟨rfl, -⟩ := List.cons.inj heq
      rw [if_pos (.inl rfl), ih hskip]
      rfl

/-- The same if a key may start behind the spaces or in front of them. -/
lemma toToken_withFresh_spaces {flow fresh : Bool} {count : ℕ}
    (h : state.rest = spaces count ++ tail) :
    ((state.pass (spaces count)).withFresh fresh).toToken flow =
      (state.withFresh fresh).toToken flow := by
  have hfresh : (state.withFresh fresh).rest = spaces count ++ tail := h
  rw [toToken_spaces hfresh, pass_withFresh]

/-- The way to a token of a block leads past a break, behind which a key may start. -/
lemma toToken_break (hc : isBreak c = true) (h : state.rest = c :: tail) :
    state.toToken false = ((state.passChar c).withFresh true).toToken false := by
  have hblank := isBlank_eq_false_of_isBreak hc
  simp only [isBlank, Bool.or_eq_false_iff, beq_eq_false_iff_ne] at hblank
  have hsign : c ≠ '#' := by
    rintro rfl
    exact absurd hc (by decide)
  rw [toToken]
  split
  · rename_i heq
    rw [h] at heq
    cases heq
  · rename_i d rest heq
    rw [h] at heq
    obtain ⟨rfl, -⟩ := List.cons.inj heq
    rw [if_neg (by rintro (h | ⟨h, -⟩); exacts [hblank.1 h, hblank.2 h]), if_neg hsign, if_pos hc,
      passChar_of_isBreak hc, Bool.not_false, Bool.or_true]

/-- Behind an entry the way leads past the spaces of the next line, if there is one. -/
lemma toToken_outside {flow : Bool} {count : ℕ} (h : state.rest = spaces count ++ c :: tail)
    (starts : StartsToken c) : state.toToken flow = state.pass (spaces count) := by
  rw [toToken_spaces h]
  apply toToken_eq_self
  rw [rest_pass isPrintable_of_mem_spaces h]
  rintro d ⟨⟩
  exact starts

end State

end EditBatch.Yaml
