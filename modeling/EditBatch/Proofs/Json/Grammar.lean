import EditBatch.Json.Reader
import Mathlib.Data.Int.Notation
import Mathlib.Data.List.Forall2
import Mathlib.Data.Nat.Notation
set_option autoImplicit false

/-!
# How JSON is written

A tree is what a JSON text says: scalars, lists, and maps as their entries in order, with keys that
may stand several times. The same tree is written by many texts, which differ in blanks, in escapes
and in how the exponents of numbers are written.

## Main definitions

* `EditBatch.Json.Tree` — what a text says.
* `EditBatch.Json.TextWrittenAs`, `EditBatch.Json.Numeral.WrittenAs` — the ways to write a text and
  a number.
* `EditBatch.Json.Tree.WrittenAs` — the ways to write a tree.
* `EditBatch.Json.Tree.WrittenAlone` — the ways to write a tree and nothing else.

## Design

The ways to write a tree are defined by recursion on the tree and not on the text, so that a proof
about all texts of a tree follows the tree. Blanks and the comma belong to what stands behind them.
-/

namespace EditBatch.Json

/-- What a JSON text says. -/
inductive Tree where
  | null
  | bool (value : Bool)
  | number (numeral : Numeral)
  | text (value : String)
  | list (items : List Tree)
  /-- The entries of a map in order. The same key may stand in several of them. -/
  | map (entries : List (String × Tree))
  deriving Repr

/-! ## Blanks and marks -/

/-- Whether a text is all blanks, if there is anything at all. -/
def IsBlanks (text : List Char) : Prop := ∀ c ∈ text, isBlank c = true

/-- What stands in front of an item or a key: blanks, with a comma among them unless it is the first
one. -/
def IsLead (first : Bool) (text : List Char) : Prop :=
  if first then IsBlanks text
  else ∃ before behind, IsBlanks before ∧ IsBlanks behind ∧ text = before ++ ',' :: behind

/-- What stands between a key and its value: a colon among blanks. -/
def IsColon (text : List Char) : Prop :=
  ∃ before behind, IsBlanks before ∧ IsBlanks behind ∧ text = before ++ ':' :: behind

/-! ## Texts -/

/-- The number that four hexadecimal digits write. -/
def UnitWrittenAs (unit : ℕ) (text : List Char) : Prop :=
  ∃ a b c d, List.Forall₂ (fun value digit => digit? 16 digit = some value) [a, b, c, d] text ∧
    unit = ((a * 16 + b) * 16 + c) * 16 + d

/-- The ways to write a character between quotes. -/
inductive CharWrittenAs : Char → List Char → Prop where
  /-- Any character but the quote, the backslash and those below the space stands for itself. -/
  | plain {c : Char} (printed : ' ' ≤ c) (quote : c ≠ '"') (backslash : c ≠ '\\') :
      CharWrittenAs c [c]
  | letter {c letter : Char} (stands : shortEscape? letter = some c) :
      CharWrittenAs c ['\\', letter]
  | unit {unit : ℕ} {digits : List Char} (written : UnitWrittenAs unit digits)
      (high : ¬ IsHighHalf unit) (low : ¬ IsLowHalf unit) :
      CharWrittenAs (Char.ofNat unit) ('\\' :: 'u' :: digits)
  | halves {high low : ℕ} {first second : List Char} (writtenHigh : UnitWrittenAs high first)
      (writtenLow : UnitWrittenAs low second) (isHigh : IsHighHalf high) (isLow : IsLowHalf low) :
      CharWrittenAs (ofHalves high low) ('\\' :: 'u' :: (first ++ '\\' :: 'u' :: second))

/-- The ways to write characters between quotes. -/
def TextWrittenAs (chars text : List Char) : Prop :=
  ∃ pieces, List.Forall₂ CharWrittenAs chars pieces ∧ text = pieces.flatten

/-- Between quotes characters that need no escape stand for themselves. -/
lemma textWrittenAs_self {chars : List Char}
    (h : chars.all (fun c => !(c < ' ') && c != '"' && c != '\\') = true) :
    TextWrittenAs chars chars := by
  refine ⟨chars.map fun c => [c], ?_, by rw [← List.flatMap_def, List.flatMap_singleton']⟩
  rw [List.forall₂_map_right_iff, List.forall₂_same]
  intro c hc
  have hself := List.all_eq_true.mp h c hc
  simp only [Bool.and_eq_true, Bool.not_eq_true', decide_eq_false_iff_not, bne_iff_ne] at hself
  exact .plain (Char.not_lt.mp hself.1.1) hself.1.2 hself.2

/-! ## Numbers -/

/-- Some digits, at least one, and their characters. -/
structure DigitsWrittenAs (digits : List ℕ) (text : List Char) : Prop where
  ne_nil : text ≠ []
  isDigit : ∀ c ∈ text, c.isDigit = true
  values : digits = text.map fun c => c.toNat - '0'.toNat

/-- The ways to write the digits behind the point, which stands only in front of digits. -/
inductive FractionWrittenAs : List ℕ → List Char → Prop where
  | none : FractionWrittenAs [] []
  | point {digits : List ℕ} {text : List Char} (written : DigitsWrittenAs digits text) :
      FractionWrittenAs digits ('.' :: text)

/-- The ways to write an exponent behind its letter. -/
inductive SignedWrittenAs : ℤ → List Char → Prop where
  | unsigned {digits : List ℕ} {text : List Char} (written : DigitsWrittenAs digits text) :
      SignedWrittenAs (ofDigits digits) text
  | plus {digits : List ℕ} {text : List Char} (written : DigitsWrittenAs digits text) :
      SignedWrittenAs (ofDigits digits) ('+' :: text)
  | minus {digits : List ℕ} {text : List Char} (written : DigitsWrittenAs digits text) :
      SignedWrittenAs (-(ofDigits digits : ℤ)) ('-' :: text)

/-- The ways to write an exponent, which may be missing. -/
inductive ExponentWrittenAs : Option ℤ → List Char → Prop where
  | none : ExponentWrittenAs none []
  | letter {exponent : ℤ} {letter : Char} {text : List Char}
      (isLetter : letter = 'e' ∨ letter = 'E') (written : SignedWrittenAs exponent text) :
      ExponentWrittenAs (some exponent) (letter :: text)

/-- The ways to write a number without its sign. A zero stands in front of no other digit. -/
structure Numeral.WrittenUnsignedAs (numeral : Numeral) (text : List Char) : Prop where
  head : numeral.whole.head? = some 0 → numeral.whole = [0]
  exists_parts : ∃ whole fraction exponent, DigitsWrittenAs numeral.whole whole ∧
    FractionWrittenAs numeral.fraction fraction ∧ ExponentWrittenAs numeral.exponent exponent ∧
    text = whole ++ (fraction ++ exponent)

/-- The ways to write a number. -/
def Numeral.WrittenAs (numeral : Numeral) (text : List Char) : Prop :=
  ∃ unsigned, numeral.WrittenUnsignedAs unsigned ∧
    text = if numeral.negative then '-' :: unsigned else unsigned

/-- A number of one digit is written as the digit. -/
lemma Numeral.writtenAs_digit {c : Char} (h : c.isDigit = true) :
    Numeral.WrittenAs ⟨false, [c.toNat - '0'.toNat], [], none⟩ [c] := by
  have digit : DigitsWrittenAs [c.toNat - '0'.toNat] [c] :=
    ⟨List.cons_ne_nil _ _, List.forall_mem_singleton.mpr h, rfl⟩
  refine ⟨[c], ⟨fun hzero => ?_, [c], [], [], digit, .none, .none, rfl⟩, rfl⟩
  rw [Option.some.inj hzero]

/-! ## Trees -/

mutual

/-- The ways to write a tree. -/
def Tree.WrittenAs : Tree → List Char → Prop
  | .null, text => text = ['n', 'u', 'l', 'l']
  | .bool true, text => text = ['t', 'r', 'u', 'e']
  | .bool false, text => text = ['f', 'a', 'l', 's', 'e']
  | .number numeral, text => numeral.WrittenAs text
  | .text value, text =>
    ∃ written, TextWrittenAs value.toList written ∧ text = '"' :: (written ++ ['"'])
  | .list items, text => ∃ written, ItemsWrittenAs true items written ∧ text = '[' :: written
  | .map entries, text =>
    ∃ written, EntriesWrittenAs true entries written ∧ text = '\x7b' :: written

/-- The ways to write the items of a list, up to its end. -/
def ItemsWrittenAs (first : Bool) : List Tree → List Char → Prop
  | [], text => ∃ blanks, IsBlanks blanks ∧ text = blanks ++ [']']
  | item :: items, text => ∃ lead written more, IsLead first lead ∧ item.WrittenAs written ∧
      ItemsWrittenAs false items more ∧ text = lead ++ (written ++ more)

/-- The ways to write the entries of a map, up to its end. -/
def EntriesWrittenAs (first : Bool) : List (String × Tree) → List Char → Prop
  | [], text => ∃ blanks, IsBlanks blanks ∧ text = blanks ++ ['\x7d']
  | (key, value) :: entries, text => ∃ lead name colon written more, IsLead first lead ∧
      TextWrittenAs key.toList name ∧ IsColon colon ∧ value.WrittenAs written ∧
      EntriesWrittenAs false entries more ∧
      text = lead ++ ('"' :: (name ++ '"' :: (colon ++ (written ++ more))))

end

/-- The ways to write a tree and nothing else but blanks. -/
def Tree.WrittenAlone (tree : Tree) (text : List Char) : Prop :=
  ∃ before written behind, IsBlanks before ∧ tree.WrittenAs written ∧ IsBlanks behind ∧
    text = before ++ (written ++ behind)

end EditBatch.Json
