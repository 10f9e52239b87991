set_option autoImplicit false

/-!
# Line breaks

A text falls into lines at its breaks: line feed, carriage return, vertical tab, form feed,
next line, line separator and paragraph separator, and a carriage return with the line feed
behind it as one break. There is always one line more than there are breaks.

## Main definitions

* `EditBatch.IsLineBreak` — the seven characters that end a line.
* `EditBatch.LineSpan` — where a line lies, its break left out.
* `EditBatch.lineStarts` — the offsets at which the lines of a text start.
* `EditBatch.splitLines` — the lines themselves, each with the break that ends it.
* `EditBatch.breakLength` — how much of the end of a line is its break.

## Main results

* `EditBatch.flatten_splitLines` — no character is lost or added by splitting.
* `EditBatch.splitLines_ne_nil` — there is always a line.
-/

namespace EditBatch

/-- The characters that end a line. -/
def IsLineBreak (c : Char) : Prop :=
  c ∈ ['\n', '\r', '\x0b', '\x0c', '\u0085', '\u2028', '\u2029']

instance (c : Char) : Decidable (IsLineBreak c) := by
  unfold IsLineBreak
  infer_instance

/-- Where a line lies: the offset of its first character and the number of its characters,
its break left out. -/
structure LineSpan where
  start : Nat
  length : Nat
  deriving DecidableEq, Repr, Inhabited

/-- The offset of the break, or of the end of the document after the last line. -/
def LineSpan.stop (span : LineSpan) : Nat := span.start + span.length

/-- The starts of the lines behind the breaks of a text that itself starts at `offset`. -/
def lineStartsAfter (offset : Nat) : List Char → List Nat
  | [] => []
  | '\r' :: '\n' :: rest => (offset + 2) :: lineStartsAfter (offset + 2) rest
  | c :: rest =>
    if IsLineBreak c then (offset + 1) :: lineStartsAfter (offset + 1) rest
    else lineStartsAfter (offset + 1) rest

/-- The starts of all lines of a text. The first line starts at zero. -/
def lineStarts (text : List Char) : List Nat := 0 :: lineStartsAfter 0 text

/-- Puts a character in front of the first line. -/
def consToFirst (c : Char) : List (List Char) → List (List Char)
  | [] => [[c]]
  | line :: lines => (c :: line) :: lines

/-- The lines of a text, each with the break that ends it. Only the last one has none. -/
def splitLines : List Char → List (List Char)
  | [] => [[]]
  | '\r' :: '\n' :: rest => ['\r', '\n'] :: splitLines rest
  | c :: rest =>
    if IsLineBreak c then [c] :: splitLines rest else consToFirst c (splitLines rest)

/-- The number of characters that the break at the end of a line takes. -/
def breakLength (line : List Char) : Nat :=
  match line.reverse with
  | '\n' :: '\r' :: _ => 2
  | c :: _ => if IsLineBreak c then 1 else 0
  | [] => 0

theorem flatten_consToFirst (c : Char) (lines : List (List Char)) :
    (consToFirst c lines).flatten = c :: lines.flatten := by
  cases lines <;> rfl

/-- The lines of a text, one after the other, are the text. -/
@[simp] theorem flatten_splitLines (text : List Char) : (splitLines text).flatten = text := by
  fun_induction splitLines text with
  | case1 => rfl
  | case2 rest ih => simp [ih]
  | case3 c rest _ _ ih => simp [ih]
  | case4 c rest _ _ ih => rw [flatten_consToFirst, ih]

/-- Every text has a line. -/
theorem splitLines_ne_nil (text : List Char) : splitLines text ≠ [] := by
  fun_cases splitLines text with
  | case1 => simp
  | case2 => simp
  | case3 => simp
  | case4 c rest => cases splitLines rest <;> simp [consToFirst]

end EditBatch
