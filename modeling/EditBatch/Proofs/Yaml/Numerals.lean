import EditBatch.Yaml.Writer
import Mathlib.Tactic.Common
set_option autoImplicit false

/-!
# Numbers read as they are written

A number is read from the digits in which it is written, in decimal as an argument and in
hexadecimal as an escape. A decimal number without quotes stands for that number and nothing else.

## Main results

* `EditBatch.natural?_toDigits` — a number from its decimal digits.
* `EditBatch.Yaml.hexChar?_hexDigits` — a character from its number in an escape.
* `EditBatch.Yaml.meaning_toString` — what the text of a number stands for.
-/

namespace EditBatch

/-! ## Digits -/

/-- Digits, each of which is read as the value it is written for, write their number. -/
lemma exists_mapM_digit?_toDigits {radix : ℕ} (hradix : 1 < radix) {shape : Char → Char}
    (hshape : ∀ value < radix, digit? radix (shape value.digitChar) = some value) (number : ℕ) :
    ∃ values, ((Nat.toDigits radix number).map shape).mapM (digit? radix) = some values ∧
      values.length = (Nat.toDigits radix number).length ∧
      values.foldl (fun number digit => number * radix + digit) 0 = number := by
  induction number using Nat.strongRecOn with
  | _ number ih =>
    by_cases hlt : number < radix
    · refine ⟨[number], ?_, ?_, by simp⟩
      · rw [Nat.toDigits_of_lt_base hlt]
        simp [hshape number hlt]
      · rw [Nat.toDigits_of_lt_base hlt]
        rfl
    · -- the last digit comes off the end
      obtain ⟨values, hread, hlength, hvalue⟩ :=
        ih (number / radix) (Nat.div_lt_self (by omega) hradix)
      have hlast := hshape (number % radix) (Nat.mod_lt _ (by omega))
      rw [Nat.toDigits_of_base_le hradix (by omega)]
      refine ⟨values ++ [number % radix], ?_, by simp [hlength], ?_⟩
      · rw [List.map_append, List.mapM_append, hread]
        simp [hlast]
      · rw [List.foldl_append, hvalue, List.foldl_cons, List.foldl_nil]
        exact Nat.div_add_mod' number radix

/-- What holds of each digit holds of all that a number is written with. -/
lemma forall_mem_toDigits {radix : ℕ} (hradix : 1 < radix) {P : Char → Prop}
    (h : ∀ value < radix, P value.digitChar) (number : ℕ) :
    ∀ c ∈ Nat.toDigits radix number, P c := by
  induction number using Nat.strongRecOn with
  | _ number ih =>
    by_cases hlt : number < radix
    · rw [Nat.toDigits_of_lt_base hlt, List.forall_mem_singleton]
      exact h number hlt
    · rw [Nat.toDigits_of_base_le hradix (by omega), List.forall_mem_append,
        List.forall_mem_singleton]
      exact ⟨ih (number / radix) (Nat.div_lt_self (by omega) hradix),
        h (number % radix) (Nat.mod_lt _ (by omega))⟩

/-- Digits may be read one by one or all at once. -/
lemma foldlM_digit? (radix number : ℕ) (text : List Char) :
    text.foldlM (fun number c => (digit? radix c).map (number * radix + ·)) number =
      (text.mapM (digit? radix)).map
        (List.foldl (fun number digit => number * radix + digit) number) := by
  induction text generalizing number with
  | nil => rfl
  | cons c text ih =>
    rw [List.foldlM_cons, List.mapM_cons]
    cases digit? radix c with
    | none => rfl
    | some value =>
      simp only [Option.map_some, Option.bind_eq_bind, Option.bind_some, ih]
      cases text.mapM (digit? radix) <;> rfl

/-- **A number is read from its decimal digits.** -/
lemma natural?_toDigits (number : ℕ) : natural? 10 (Nat.toDigits 10 number) = some number := by
  obtain ⟨values, hread, -, hvalue⟩ :=
    @exists_mapM_digit?_toDigits 10 (by decide) id (by decide) number
  rw [List.map_id] at hread
  rw [natural?, if_neg (by simp [Nat.toDigits_ne_nil]), foldlM_digit?, hread, Option.map_some,
    hvalue]

/-- Zero is the only number that is written with a zero in front. -/
lemma head?_toDigits_ne_zero {number : ℕ} (h : 0 < number) :
    (Nat.toDigits 10 number).head? ≠ some '0' := by
  induction number using Nat.strongRecOn with
  | _ number ih =>
    by_cases hlt : number < 10
    · have hdigit : ∀ value < 10, 0 < value → some value.digitChar ≠ some '0' := by decide
      rw [Nat.toDigits_of_lt_base hlt]
      exact hdigit number hlt h
    · rw [Nat.toDigits_of_base_le (by decide) (by omega),
        List.head?_append, Option.or_of_isSome (by simp [Nat.toDigits_ne_nil])]
      exact ih (number / 10) (by omega) (by omega)

namespace Yaml

/-! ## Escapes -/

/-- Zeros in front of hexadecimal digits change nothing. -/
lemma exists_mapM_digit?_zeros (zeros number : ℕ) :
    ∃ values, (List.replicate zeros '0' ++ (Nat.toDigits 16 number).map Char.toUpper).mapM
        (digit? 16) = some values ∧
      values.length = zeros + (Nat.toDigits 16 number).length ∧
      values.foldl (fun number digit => number * 16 + digit) 0 = number := by
  induction zeros with
  | zero =>
    obtain ⟨values, hread, hlength, hvalue⟩ :=
      @exists_mapM_digit?_toDigits 16 (by decide) Char.toUpper (by decide) number
    exact ⟨values, hread, by omega, hvalue⟩
  | succ zeros ih =>
    obtain ⟨values, hread, hlength, hvalue⟩ := ih
    refine ⟨0 :: values, ?_, ?_, hvalue⟩
    · rw [List.replicate_succ, List.cons_append, List.mapM_cons, hread]
      rfl
    · rw [List.length_cons]
      omega

lemma length_hexDigits {count number : ℕ} (h : (Nat.toDigits 16 number).length ≤ count) :
    (hexDigits count number).length = count := by
  simp only [hexDigits, List.length_append, List.length_replicate, List.length_map]
  omega

/-- **A character is read from its number in an escape**, if there are enough digits for it. -/
lemma hexChar?_hexDigits {count : ℕ} {c : Char} (h : (Nat.toDigits 16 c.toNat).length ≤ count)
    (rest : List Char) : hexChar? count (hexDigits count c.toNat ++ rest) = some c := by
  obtain ⟨values, hread, hvalues, hvalue⟩ :=
    exists_mapM_digit?_zeros (count - (Nat.toDigits 16 c.toNat).length) c.toNat
  have hdigits : (hexDigits count c.toNat).mapM (digit? 16) = some values := by
    rw [hexDigits, List.length_map, hread]
  have hvalid : c.toNat.isValidChar := c.valid
  rw [hexChar?, List.take_left' (length_hexDigits h), hdigits]
  simp only [Option.bind_eq_bind, Option.bind_some, hvalue]
  rw [if_neg (by omega), if_pos hvalid, Char.ofNat_toNat]

/-! ## Numbers without quotes -/

lemma isDigit_of_mem_toString {number : ℕ} {c : Char} (h : c ∈ (toString number).toList) :
    c.isDigit = true := by
  rw [Nat.toString_eq_repr, Nat.toList_repr] at h
  exact Nat.isDigit_of_mem_toDigits (by decide) (by decide) h

/-- A number is written without a sign, and with a zero in front only if it is zero. -/
lemma exists_toDigits_eq_cons (number : ℕ) :
    ∃ c rest, Nat.toDigits 10 number = c :: rest ∧ c.isDigit = true ∧ (c = '0' → rest = []) := by
  obtain ⟨c, rest, heq⟩ :=
    List.exists_cons_of_ne_nil (Nat.toDigits_ne_nil (b := 10) (n := number))
  have hmem : c ∈ Nat.toDigits 10 number := by simp [heq]
  refine ⟨c, rest, heq, Nat.isDigit_of_mem_toDigits (by decide) (by decide) hmem, ?_⟩
  rintro rfl
  rcases Nat.eq_zero_or_pos number with rfl | hpos
  · exact (List.cons.inj heq).2.symm
  · exact absurd (by rw [heq]; rfl) (head?_toDigits_ne_zero hpos)

/-- The digits of a number have no zero too many. -/
lemma hasSpareZero_toDigits (number : ℕ) : hasSpareZero (Nat.toDigits 10 number) = false := by
  obtain ⟨c, rest, heq, hc, hzero⟩ := exists_toDigits_eq_cons number
  have hsign : isSign c = false := by
    by_contra h
    simp only [isSign, Bool.not_eq_false, Bool.or_eq_true, beq_iff_eq] at h
    rcases h with rfl | rfl <;> exact absurd hc (by decide)
  rw [hasSpareZero, heq, dropSign, hsign]
  split
  · rename_i digits h
    obtain ⟨rfl, rfl⟩ := List.cons.inj h
    rw [hzero rfl]
    rfl
  · rfl

/-- Digits are decimal unless a mark says otherwise. -/
lemma radixOf_toDigits (number : ℕ) :
    radixOf (Nat.toDigits 10 number) = (10, Nat.toDigits 10 number) := by
  obtain ⟨c, rest, heq, -, hzero⟩ := exists_toDigits_eq_cons number
  rw [heq]
  unfold radixOf
  split
  case h_4 => rfl
  all_goals
    rename_i h
    obtain ⟨rfl, hrest⟩ := List.cons.inj h
    rw [hzero rfl] at hrest
    cases hrest

/-- The digits of a number are a whole number. -/
lemma whole?_toDigits (number : ℕ) : whole? (Nat.toDigits 10 number) = some (false, number) := by
  obtain ⟨c, rest, heq, hc, -⟩ := exists_toDigits_eq_cons number
  have hplus : dropPlus (Nat.toDigits 10 number) = Nat.toDigits 10 number := by
    rw [heq, dropPlus]
    rintro digits ⟨⟩
    exact absurd hc (by decide)
  rw [whole?, hasSpareZero_toDigits, hplus]
  · simp only [radixOf_toDigits, natural?_toDigits]
    rfl
  · rw [heq]
    rintro digits ⟨⟩
    exact absurd hc (by decide)

/-- **The text of a number stands for that number.** -/
lemma meaning_toString (number : UInt64) :
    meaning (toString number.toNat) = .unsigned number := by
  have hdigits : (toString number.toNat).toList = Nat.toDigits 10 number.toNat := by
    rw [Nat.toString_eq_repr, Nat.toList_repr]
  -- every word with a meaning of its own has a character that is no digit
  have hwords : ∀ words : List String, (∀ word ∈ words, word.toList.all Char.isDigit = false) →
      words.contains (toString number.toNat) = false := by
    intro words hwords
    rw [List.contains_eq_mem, decide_eq_false_iff_not]
    intro hmem
    have hall : (toString number.toNat).toList.all Char.isDigit = true :=
      List.all_eq_true.mpr fun c => isDigit_of_mem_toString
    rw [hwords _ hmem] at hall
    cases hall
  have hnull : isNull (toString number.toNat) = false := hwords _ (by decide)
  have hbool : bool? (toString number.toNat) = none := by
    rw [bool?, hwords _ (by decide), hwords _ (by decide)]
    rfl
  have hempty : (toString number.toNat).isEmpty = false := by
    rw [String.isEmpty_eq_false_iff]
    intro h
    rw [h] at hdigits
    exact Nat.toDigits_ne_nil hdigits.symm
  have hlt : number.toNat < UInt64.size := number.toNat_lt
  rw [meaning, hempty, hnull, hbool]
  simp only [hdigits, whole?_toDigits, wholeMeaning?, Option.bind_some, hlt, if_true,
    UInt64.ofNat_toNat]
  rfl

end Yaml

end EditBatch
