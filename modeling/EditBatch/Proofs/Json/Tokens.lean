import EditBatch.Proofs.Json.Grammar
import Mathlib.Tactic.Common
set_option autoImplicit false

/-!
# Blanks, texts and numbers read as they are written

The reader goes through a text once and looks at most a few characters ahead. Every part of it that
is written in one of the ways of the grammar is read as what it says, up to what follows it.

## Main definitions

* `EditBatch.Json.StartsValue` — how a value can start.
* `EditBatch.Json.Delimited` — what may follow a value.

## Main results

* `EditBatch.Json.nextItem_lead`, `EditBatch.Json.nextKey_lead`, `EditBatch.Json.exists_expectColon`
  — what stands between values.
* `EditBatch.Json.readText_eq` — a text.
* `EditBatch.Json.scanNumeral_eq` — a number.
-/

namespace EditBatch.Json

variable {rest : List Char}

/-! ## Between values -/

/-- Whether a value, and neither a blank nor a mark behind a value, starts with a character. -/
def StartsValue (c : Char) : Prop := isBlank c = false ∧ c ≠ ',' ∧ c ≠ ']'

instance (c : Char) : Decidable (StartsValue c) := inferInstanceAs (Decidable (_ ∧ _))

/-- Whether what is left may follow a value: nothing, a blank, a comma or the end of a list or a
map. -/
def Delimited (text : List Char) : Prop :=
  ∀ c ∈ text.head?, isBlank c = true ∨ c = ',' ∨ c = ']' ∨ c = '\x7d'

lemma skipBlanks_append {blanks : List Char} (h : IsBlanks blanks) :
    skipBlanks (blanks ++ rest) = skipBlanks rest := List.dropWhile_append_of_pos h

lemma skipBlanks_cons {c : Char} (h : isBlank c = false) : skipBlanks (c :: rest) = c :: rest :=
  List.dropWhile_cons_of_neg (by rw [h]; exact Bool.false_ne_true)

/-- What comes behind blanks is met where it starts. -/
lemma skipBlanks_blanks {blanks : List Char} {c : Char} (h : IsBlanks blanks)
    (hc : isBlank c = false) : skipBlanks (blanks ++ c :: rest) = c :: rest := by
  rw [skipBlanks_append h, skipBlanks_cons hc]

lemma nextItem_end (first : Bool) {blanks : List Char} (h : IsBlanks blanks) :
    nextItem first (blanks ++ ']' :: rest) = .ok (false, rest) := by
  rw [nextItem, skipBlanks_blanks h (by decide)]
  rfl

/-- Behind its lead an item comes next. -/
lemma nextItem_lead {first : Bool} {lead : List Char} {c : Char} (h : IsLead first lead)
    (hc : StartsValue c) : nextItem first (lead ++ c :: rest) = .ok (true, c :: rest) := by
  obtain ⟨hblank, hcomma, hbracket⟩ := hc
  cases first with
  | true =>
    rw [nextItem, skipBlanks_blanks h hblank]
    split <;> simp_all
  | false =>
    obtain ⟨before, behind, hbefore, hbehind, rfl⟩ := h
    rw [List.append_assoc, List.cons_append, nextItem, skipBlanks_blanks hbefore (by decide)]
    simp only [Bool.false_eq_true, if_false, skipBlanks_blanks hbehind hblank]
    split <;> simp_all

lemma nextKey_end (first : Bool) {blanks : List Char} (h : IsBlanks blanks) :
    nextKey first (blanks ++ '\x7d' :: rest) = .ok (false, rest) := by
  rw [nextKey, skipBlanks_blanks h (by decide)]
  rfl

/-- Behind its lead a key comes next. -/
lemma nextKey_lead {first : Bool} {lead : List Char} (h : IsLead first lead) :
    nextKey first (lead ++ '"' :: rest) = .ok (true, rest) := by
  cases first with
  | true =>
    rw [nextKey, skipBlanks_blanks h (by decide)]
    rfl
  | false =>
    obtain ⟨before, behind, hbefore, hbehind, rfl⟩ := h
    have hquote : isBlank '"' = false := by decide
    rw [List.append_assoc, List.cons_append, nextKey, skipBlanks_blanks hbefore (by decide)]
    simp only [Bool.false_eq_true, if_false, skipBlanks_blanks hbehind hquote]

/-- Behind the colon only blanks are left in front of the value. -/
lemma exists_expectColon {colon : List Char} (h : IsColon colon) :
    ∃ blanks, IsBlanks blanks ∧ expectColon (colon ++ rest) = .ok (blanks ++ rest) := by
  obtain ⟨before, behind, hbefore, hbehind, rfl⟩ := h
  refine ⟨behind, hbehind, ?_⟩
  rw [List.append_assoc, List.cons_append, expectColon, skipBlanks_blanks hbefore (by decide)]
  rfl

/-! ## Texts -/

lemma hexUnit_eq {unit : ℕ} {digits : List Char} (h : UnitWrittenAs unit digits) :
    digits.length = 4 ∧ hexUnit (digits ++ rest) = .ok unit := by
  obtain ⟨a, b, c, d, hdigits, rfl⟩ := h
  obtain _ | ⟨ha, _ | ⟨hb, _ | ⟨hc, _ | ⟨hd, _ | _⟩⟩⟩⟩ := hdigits
  exact ⟨rfl, by simp [hexUnit, ha, hb, hc, hd]⟩

/-- An escape is read as the character that it stands for, and passed as a whole. -/
lemma readEscape_eq {c : Char} {escape : List Char} (h : CharWrittenAs c ('\\' :: escape)) :
    readEscape (escape ++ rest) = .ok (c, escape.length) := by
  cases h with
  | plain printed quote backslash => exact absurd rfl backslash
  | @letter _ letter stands =>
    rw [List.singleton_append]
    unfold readEscape
    split
    · rename_i heq
      cases heq
    · rename_i heq
      cases heq
      cases stands
    · rename_i heq
      cases heq
      rw [stands]
      rfl
  | @unit unit digits written high low =>
    obtain ⟨hlength, hread⟩ := @hexUnit_eq rest _ _ written
    simp [readEscape, hread, high, low, hlength, pure, bind, Except.pure, Except.bind]
  | @halves high low first second writtenHigh writtenLow isHigh isLow =>
    obtain ⟨hfirst, hreadHigh⟩ :=
      @hexUnit_eq ('\\' :: 'u' :: (second ++ rest)) _ _ writtenHigh
    obtain ⟨hsecond, hreadLow⟩ := @hexUnit_eq rest _ _ writtenLow
    have hnotLow : ¬ IsLowHalf high := fun hlow => by
      have := isHigh.2
      have := hlow.1
      omega
    have hlow : lowHalf ('\\' :: 'u' :: (second ++ rest)) = .ok low := by
      simp [lowHalf, hreadLow, isLow, pure, bind, Except.pure, Except.bind]
    have hdrop : (first ++ '\\' :: 'u' :: (second ++ rest)).drop 4 =
        '\\' :: 'u' :: (second ++ rest) := by rw [← hfirst, List.drop_left]
    rw [List.cons_append, List.append_assoc, List.cons_append, List.cons_append, readEscape,
      hreadHigh]
    simp [hlow, hnotLow, isHigh, hfirst, hsecond, pure, bind, Except.pure, Except.bind]

/-- **A character is read as it is written.** -/
lemma readText_char {c : Char} {piece : List Char} (h : CharWrittenAs c piece) :
    readText (piece ++ rest) = (readText rest).map fun (read, left) => (c :: read, left) := by
  obtain ⟨printed, quote, backslash, rfl⟩ | ⟨escape, rfl⟩ :
      (' ' ≤ c ∧ c ≠ '"' ∧ c ≠ '\\' ∧ piece = [c]) ∨ ∃ escape, piece = '\\' :: escape := by
    cases h with
    | plain printed quote backslash => exact .inl ⟨printed, quote, backslash, rfl⟩
    | letter => exact .inr ⟨_, rfl⟩
    | unit => exact .inr ⟨_, rfl⟩
    | halves => exact .inr ⟨_, rfl⟩
  · rw [List.singleton_append, readText, if_neg (Char.not_lt.mpr printed)]
    · cases readText rest <;> rfl
    · exact quote
    · exact fun tail => backslash tail
  · rw [List.cons_append, readText, readEscape_eq h]
    simp only [List.drop_left]
    cases readText rest <;> rfl

/-- **A text is read as it is written**, up to its closing quote. -/
lemma readText_eq {chars written : List Char} (h : TextWrittenAs chars written) :
    readText (written ++ '"' :: rest) = .ok (chars, rest) := by
  obtain ⟨pieces, hpieces, rfl⟩ := h
  induction hpieces with
  | nil => rw [List.flatten_nil, List.nil_append, readText]
  | cons hpiece _ ih => rw [List.flatten_cons, List.append_assoc, readText_char hpiece, ih]; rfl

/-! ## Numbers -/

/-- Digits are read up to the first other character. -/
lemma scanDigits_eq {digits : List ℕ} {text : List Char} (h : DigitsWrittenAs digits text)
    (hrest : ∀ c ∈ rest.head?, c.isDigit = false) (atEnd : Error) :
    scanDigits atEnd (text ++ rest) = .ok (digits, rest) := by
  obtain ⟨hne, hdigit, rfl⟩ := h
  obtain ⟨c, text, rfl⟩ := List.exists_cons_of_ne_nil hne
  have htake : (c :: text ++ rest).takeWhile Char.isDigit = c :: text := by
    rw [List.takeWhile_append_of_pos hdigit]
    cases rest with
    | nil => simp
    | cons d rest => simp [hrest d rfl]
  have hdrop : (c :: text ++ rest).dropWhile Char.isDigit = rest := by
    rw [List.dropWhile_append_of_pos hdigit]
    cases rest with
    | nil => rfl
    | cons d rest => simp [hrest d rfl]
  have hc : c.isDigit = true := hdigit c List.mem_cons_self
  change (if c.isDigit then _ else _) = _
  rw [if_pos hc, leadingDigits, afterDigits, htake, hdrop]

/-- A digit is no letter and no point, and neither ends what a fraction or an exponent goes on. -/
lemma Delimited.not_numeral (h : Delimited rest) :
    ∀ c ∈ rest.head?, c.isDigit = false ∧ c ≠ '.' ∧ c ≠ 'e' ∧ c ≠ 'E' := by
  intro c hc
  rcases h c hc with hblank | rfl | rfl | rfl
  · simp only [isBlank, Bool.or_eq_true, beq_iff_eq] at hblank
    rcases hblank with ((rfl | rfl) | rfl) | rfl <;> decide
  all_goals decide

/-- The digits of a fraction, which may be missing, are read. -/
lemma scanFraction_eq {digits : List ℕ} {text : List Char} (h : FractionWrittenAs digits text)
    (hrest : ∀ c ∈ rest.head?, c.isDigit = false ∧ c ≠ '.') (atEnd : Error) :
    scanFraction atEnd (text ++ rest) = .ok (digits, rest) := by
  cases h with
  | none =>
    rw [List.nil_append]
    unfold scanFraction
    split
    · exact absurd rfl (hrest '.' rfl).2
    · rfl
  | point written =>
    rw [List.cons_append]
    exact scanDigits_eq written (fun c hc => (hrest c hc).1) atEnd

lemma scanSigned_eq {exponent : ℤ} {text : List Char} (h : SignedWrittenAs exponent text)
    (hrest : ∀ c ∈ rest.head?, c.isDigit = false) (atEnd : Error) :
    scanSigned atEnd (text ++ rest) = .ok (some exponent, rest) := by
  cases h with
  | unsigned written =>
    obtain ⟨c, tail, rfl⟩ := List.exists_cons_of_ne_nil written.ne_nil
    have hc := written.isDigit c List.mem_cons_self
    rw [List.cons_append]
    unfold scanSigned
    split
    · rename_i heq
      cases heq
      cases hc
    · rename_i heq
      cases heq
      cases hc
    · rw [← List.cons_append, scanDigits_eq written hrest]
      rfl
  | plus written =>
    rw [List.cons_append, scanSigned, scanDigits_eq written hrest]
    rfl
  | minus written =>
    rw [List.cons_append, scanSigned, scanDigits_eq written hrest]
    rfl

/-- An exponent, which may be missing, is read. -/
lemma scanExponent_eq {exponent : Option ℤ} {text : List Char}
    (h : ExponentWrittenAs exponent text) (hrest : Delimited rest) (atEnd : Error) :
    scanExponent atEnd (text ++ rest) = .ok (exponent, rest) := by
  have hnumeral := hrest.not_numeral
  cases h with
  | none =>
    rw [List.nil_append]
    unfold scanExponent
    split
    · exact absurd rfl (hnumeral 'e' rfl).2.2.1
    · exact absurd rfl (hnumeral 'E' rfl).2.2.2
    · rfl
  | letter isLetter written =>
    have hsigned := scanSigned_eq written (fun c hc => (hnumeral c hc).1) atEnd
    rcases isLetter with rfl | rfl <;> exact hsigned

/-- The digits in front of the point are read, of which only a zero alone starts with a zero. -/
lemma scanWhole_eq {digits : List ℕ} {text : List Char} (h : DigitsWrittenAs digits text)
    (hhead : digits.head? = some 0 → digits = [0])
    (hrest : ∀ c ∈ rest.head?, c.isDigit = false) (atEnd : Error) :
    scanWhole atEnd (text ++ rest) = .ok (digits, rest) := by
  rw [scanWhole, scanDigits_eq h hrest]
  simp only [bind, Except.bind]
  split
  · cases hhead rfl
  · rfl

/-- What is written behind the digits in front of the point starts with no digit. -/
lemma head?_fraction_append {fraction exponent : List Char} {digits : List ℕ} {power : Option ℤ}
    (hfraction : FractionWrittenAs digits fraction) (hexponent : ExponentWrittenAs power exponent)
    (hrest : Delimited rest) :
    (∀ c ∈ (exponent ++ rest).head?, c.isDigit = false ∧ c ≠ '.') ∧
      ∀ c ∈ (fraction ++ (exponent ++ rest)).head?, c.isDigit = false := by
  have hbehind : ∀ c ∈ (exponent ++ rest).head?, c.isDigit = false ∧ c ≠ '.' := by
    cases hexponent with
    | none => exact fun c hc => ⟨(hrest.not_numeral c hc).1, (hrest.not_numeral c hc).2.1⟩
    | letter isLetter =>
      rintro c ⟨⟩
      rcases isLetter with rfl | rfl <;> decide
  refine ⟨hbehind, ?_⟩
  cases hfraction with
  | none => exact fun c hc => (hbehind c hc).1
  | point =>
    rintro c ⟨⟩
    decide

/-- **A number is read as it is written**, up to what may follow a value. -/
lemma scanNumeral_eq {numeral : Numeral} {text : List Char} (h : numeral.WrittenUnsignedAs text)
    (hrest : Delimited rest) (atEnd : Error) :
    scanNumeral atEnd numeral.negative (text ++ rest) = .ok (numeral, rest) := by
  obtain ⟨hhead, whole, fraction, exponent, hwhole, hfraction, hexponent, rfl⟩ := h
  obtain ⟨hbehindFraction, hbehindWhole⟩ := head?_fraction_append hfraction hexponent hrest
  rw [List.append_assoc, List.append_assoc, scanNumeral, scanWhole_eq hwhole hhead hbehindWhole]
  change (scanFraction atEnd (fraction ++ (exponent ++ rest)) >>= _) = _
  rw [scanFraction_eq hfraction hbehindFraction]
  change (scanExponent atEnd (exponent ++ rest) >>= _) = _
  rw [scanExponent_eq hexponent hrest]
  rfl

/-- A number starts with a digit or its sign. -/
lemma Numeral.WrittenUnsignedAs.exists_start {numeral : Numeral} {text : List Char}
    (h : numeral.WrittenUnsignedAs text) : ∃ c tail, text = c :: tail ∧ c.isDigit = true := by
  obtain ⟨-, whole, fraction, exponent, hwhole, -, -, rfl⟩ := h
  obtain ⟨c, tail, rfl⟩ := List.exists_cons_of_ne_nil hwhole.ne_nil
  exact ⟨c, _, rfl, hwhole.isDigit c List.mem_cons_self⟩

end EditBatch.Json
