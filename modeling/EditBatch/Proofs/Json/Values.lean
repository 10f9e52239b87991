import EditBatch.Proofs.ArgumentOrder
import EditBatch.Proofs.Json.Tokens
set_option autoImplicit false

/-!
# Values read as they are written

A tree that is written in one of the ways of the grammar is read as the value that it stands for.
Only two things can be wrong with it: that its lists and maps nest too deep, or that a number in it
is too great. Both are told in the same way.

## Main definitions

* `EditBatch.Json.Tree.value?` — the value that a tree stands for.
* `EditBatch.Json.Tree.depth`, `EditBatch.Json.Tree.numerals` — what the limits are about.
* `EditBatch.Json.readable` — the outcome of reading what may stand for nothing.

## Main results

* `EditBatch.Json.Tree.isSome_value?_iff` — which trees stand for a value.
* `EditBatch.Json.readScalar_eq` — a scalar is read as it is written.
* `EditBatch.Json.readValue_eq`, `EditBatch.Json.readItems_eq`, `EditBatch.Json.readEntries_eq` — so
  are all trees, the items of lists and the entries of maps.
-/

namespace EditBatch.Json

/-! ## What trees stand for -/

mutual

/-- The value that a tree stands for, if its lists and maps nest less than `depth` deep and no
number in it is too great. -/
def Tree.value? : Tree → ℕ → Option Value
  | .null, _ => some .null
  | .bool value, _ => some (.bool value)
  | .number numeral, _ => numeral.value?
  | .text value, _ => some (.text value)
  | .list items, depth => if depth ≤ 1 then none else (valuesOf? items (depth - 1)).map .list
  | .map entries, depth =>
    if depth ≤ 1 then none else (entriesOf? entries (depth - 1)).map fun read => .map (keyed read)

/-- The values that the items of a list stand for. -/
def valuesOf? : List Tree → ℕ → Option (List Value)
  | [], _ => some []
  | item :: items, depth => do return (← item.value? depth) :: (← valuesOf? items depth)

/-- The entries of values that the entries of a map stand for. -/
def entriesOf? : List (String × Tree) → ℕ → Option (List (String × Value))
  | [], _ => some []
  | (key, value) :: entries, depth => do
    return (key, ← value.value? depth) :: (← entriesOf? entries depth)

end

/-! ## Limits -/

mutual

/-- How deep lists and maps nest in a tree. -/
def Tree.depth : Tree → ℕ
  | .list items => itemsDepth items + 1
  | .map entries => entriesDepth entries + 1
  | _ => 0

/-- How deep lists and maps nest in the items of a list. -/
def itemsDepth : List Tree → ℕ
  | [] => 0
  | item :: items => max item.depth (itemsDepth items)

/-- How deep lists and maps nest in the entries of a map. -/
def entriesDepth : List (String × Tree) → ℕ
  | [] => 0
  | (_, value) :: entries => max value.depth (entriesDepth entries)

end

mutual

/-- The numbers in a tree. -/
def Tree.numerals : Tree → List Numeral
  | .number numeral => [numeral]
  | .list items => itemsNumerals items
  | .map entries => entriesNumerals entries
  | _ => []

/-- The numbers in the items of a list. -/
def itemsNumerals : List Tree → List Numeral
  | [] => []
  | item :: items => item.numerals ++ itemsNumerals items

/-- The numbers in the entries of a map. -/
def entriesNumerals : List (String × Tree) → List Numeral
  | [] => []
  | (_, value) :: entries => value.numerals ++ entriesNumerals entries

end

lemma isSome_valuesOf?_cons {item : Tree} {items : List Tree} {depth : ℕ} :
    (valuesOf? (item :: items) depth).isSome ↔
      (item.value? depth).isSome ∧ (valuesOf? items depth).isSome := by
  rw [valuesOf?]
  cases item.value? depth <;> cases valuesOf? items depth <;> simp

lemma isSome_entriesOf?_cons {key : String} {value : Tree} {entries : List (String × Tree)}
    {depth : ℕ} :
    (entriesOf? ((key, value) :: entries) depth).isSome ↔
      (value.value? depth).isSome ∧ (entriesOf? entries depth).isSome := by
  rw [entriesOf?]
  cases value.value? depth <;> cases entriesOf? entries depth <;> simp

mutual

/-- **A tree stands for a value** exactly if it keeps to the limits. -/
theorem Tree.isSome_value?_iff (tree : Tree) {depth : ℕ} (h : 0 < depth) :
    (tree.value? depth).isSome ↔
      tree.depth < depth ∧ ∀ numeral ∈ tree.numerals, numeral.value?.isSome := by
  match tree with
  | .null => simp [Tree.value?, Tree.depth, Tree.numerals, h]
  | .bool _ => simp [Tree.value?, Tree.depth, Tree.numerals, h]
  | .number _ => simp [Tree.value?, Tree.depth, Tree.numerals, h]
  | .text _ => simp [Tree.value?, Tree.depth, Tree.numerals, h]
  | .list items =>
    rw [Tree.value?, Tree.depth, Tree.numerals]
    split_ifs with hdepth
    · exact iff_of_false nofun fun hall => by omega
    · rw [Option.isSome_map, isSome_valuesOf?_iff items (by omega)]
      exact and_congr_left fun _ => by omega
  | .map entries =>
    rw [Tree.value?, Tree.depth, Tree.numerals]
    split_ifs with hdepth
    · exact iff_of_false nofun fun hall => by omega
    · rw [Option.isSome_map, isSome_entriesOf?_iff entries (by omega)]
      exact and_congr_left fun _ => by omega

theorem isSome_valuesOf?_iff (items : List Tree) {depth : ℕ} (h : 0 < depth) :
    (valuesOf? items depth).isSome ↔
      itemsDepth items < depth ∧ ∀ numeral ∈ itemsNumerals items, numeral.value?.isSome := by
  match items with
  | [] => simp [valuesOf?, itemsDepth, itemsNumerals, h]
  | item :: items =>
    rw [isSome_valuesOf?_cons, item.isSome_value?_iff h, isSome_valuesOf?_iff items h, itemsDepth,
      itemsNumerals, Nat.max_lt, List.forall_mem_append, and_and_and_comm]

theorem isSome_entriesOf?_iff (entries : List (String × Tree)) {depth : ℕ} (h : 0 < depth) :
    (entriesOf? entries depth).isSome ↔
      entriesDepth entries < depth ∧
        ∀ numeral ∈ entriesNumerals entries, numeral.value?.isSome := by
  match entries with
  | [] => simp [entriesOf?, entriesDepth, entriesNumerals, h]
  | (key, value) :: entries =>
    rw [isSome_entriesOf?_cons, value.isSome_value?_iff h, isSome_entriesOf?_iff entries h,
      entriesDepth, entriesNumerals, Nat.max_lt, List.forall_mem_append, and_and_and_comm]

end

/-! ## How values start and end -/

/-- Whether a tree is neither a list nor a map. -/
def Tree.IsScalar : Tree → Prop
  | .list _ => False
  | .map _ => False
  | _ => True

/-- Whether a value that starts with a character is neither a list nor a map. -/
def StartsScalar (c : Char) : Prop := StartsValue c ∧ c ≠ '[' ∧ c ≠ '\x7b'

instance (c : Char) : Decidable (StartsScalar c) := inferInstanceAs (Decidable (_ ∧ _))

lemma ne_of_isDigit {c d : Char} (h : c.isDigit = true) (hd : d.isDigit = false) : c ≠ d := by
  rintro rfl
  rw [h] at hd
  cases hd

lemma startsScalar_of_isDigit {c : Char} (h : c.isDigit = true) : StartsScalar c := by
  have hne := fun d => @ne_of_isDigit c d h
  refine ⟨⟨?_, hne ',' rfl, hne ']' rfl⟩, hne '[' rfl, hne '\x7b' rfl⟩
  simp [isBlank, hne ' ' rfl, hne '\n' rfl, hne '\t' rfl, hne '\r' rfl]

variable {tree : Tree} {written : List Char}

/-- A scalar does not start as a list or a map does. -/
lemma Tree.IsScalar.exists_start (scalar : tree.IsScalar) (h : tree.WrittenAs written) :
    ∃ c tail, written = c :: tail ∧ StartsScalar c := by
  cases tree with
  | null => exact ⟨_, _, h, by decide⟩
  | bool value => cases value <;> exact ⟨_, _, h, by decide⟩
  | number numeral =>
    obtain ⟨unsigned, hunsigned, rfl⟩ := h
    split_ifs
    · exact ⟨_, _, rfl, by decide⟩
    · obtain ⟨c, tail, rfl, hc⟩ := hunsigned.exists_start
      exact ⟨c, tail, rfl, startsScalar_of_isDigit hc⟩
  | text value =>
    obtain ⟨text, -, rfl⟩ := h
    exact ⟨_, _, rfl, by decide⟩
  | list items => exact scalar.elim
  | map entries => exact scalar.elim

/-- A value starts with neither a blank nor a mark behind a value. -/
lemma Tree.WrittenAs.exists_start (h : tree.WrittenAs written) :
    ∃ c tail, written = c :: tail ∧ StartsValue c := by
  by_cases scalar : tree.IsScalar
  · obtain ⟨c, tail, heq, starts, -⟩ := scalar.exists_start h
    exact ⟨c, tail, heq, starts⟩
  · cases tree with
    | list items =>
      obtain ⟨text, -, rfl⟩ := h
      exact ⟨_, _, rfl, by decide⟩
    | map entries =>
      obtain ⟨text, -, rfl⟩ := h
      exact ⟨_, _, rfl, by decide⟩
    | _ => exact absurd trivial scalar

lemma Tree.WrittenAs.length_pos (h : tree.WrittenAs written) : 0 < written.length := by
  obtain ⟨c, tail, rfl, -⟩ := h.exists_start
  exact Nat.succ_pos _

/-- Behind its lead an item is met where it starts. -/
lemma nextItem_value {first : Bool} {lead : List Char} (hlead : IsLead first lead)
    (h : tree.WrittenAs written) (rest : List Char) :
    nextItem first (lead ++ (written ++ rest)) = .ok (true, written ++ rest) := by
  obtain ⟨c, tail, rfl, starts⟩ := h.exists_start
  exact nextItem_lead hlead starts

/-- Behind the first one, an item starts with what may follow a value. -/
lemma delimited_lead {lead : List Char} (h : IsLead false lead) (rest : List Char) :
    Delimited (lead ++ rest) := by
  obtain ⟨before, behind, hbefore, -, rfl⟩ := h
  intro c hc
  rcases before with _ | ⟨d, before⟩
  · exact .inr (.inl (Option.some.inj hc).symm)
  · obtain rfl := Option.some.inj hc
    exact .inl (hbefore d List.mem_cons_self)

lemma delimited_blanks {blanks rest : List Char} (h : IsBlanks blanks) (hrest : Delimited rest) :
    Delimited (blanks ++ rest) := by
  rcases blanks with _ | ⟨d, blanks⟩
  · exact hrest
  · intro c hc
    obtain rfl := Option.some.inj hc
    exact .inl (h d List.mem_cons_self)

/-- Behind an item the list goes on or ends, and there is more text in any case. -/
lemma delimited_of_itemsWrittenAs {items : List Tree} {more : List Char}
    (h : ItemsWrittenAs false items more) (rest : List Char) :
    0 < more.length ∧ Delimited (more ++ rest) := by
  cases items with
  | nil =>
    obtain ⟨blanks, hblanks, rfl⟩ := h
    refine ⟨by simp, ?_⟩
    rw [List.append_assoc]
    exact delimited_blanks hblanks fun c hc => .inr (.inr (.inl (Option.some.inj hc).symm))
  | cons item items =>
    obtain ⟨lead, written, more, hlead, hwritten, -, rfl⟩ := h
    have hpos := hwritten.length_pos
    refine ⟨by simp only [List.length_append]; omega, ?_⟩
    rw [List.append_assoc]
    exact delimited_lead hlead _

/-- Behind an entry the map goes on or ends, and there is more text in any case. -/
lemma delimited_of_entriesWrittenAs {entries : List (String × Tree)} {more : List Char}
    (h : EntriesWrittenAs false entries more) (rest : List Char) :
    0 < more.length ∧ Delimited (more ++ rest) := by
  cases entries with
  | nil =>
    obtain ⟨blanks, hblanks, rfl⟩ := h
    refine ⟨by simp, ?_⟩
    rw [List.append_assoc]
    exact delimited_blanks hblanks fun c hc => .inr (.inr (.inr (Option.some.inj hc).symm))
  | cons entry entries =>
    obtain ⟨lead, name, colon, written, more, hlead, -, -, -, -, rfl⟩ := h
    refine ⟨by simp only [List.length_append, List.length_cons]; omega, ?_⟩
    rw [List.append_assoc]
    exact delimited_lead hlead _

/-! ## Reading -/

variable {rest : List Char}

/-- What is read where something is written that may stand for nothing. -/
def readable {α : Type} (value : Option α) (rest : List Char) : Except Error (α × List Char) :=
  match value with
  | some value => .ok (value, rest)
  | none => .error .malformed

lemma readable_eq_ok_iff {α : Type} {value : Option α} {rest left : List Char} {read : α} :
    readable value rest = .ok (read, left) ↔ value = some read ∧ rest = left := by
  cases value <;> simp [readable]

lemma readNumber_eq {numeral : Numeral} {text : List Char} (h : numeral.WrittenUnsignedAs text)
    (hrest : Delimited rest) :
    readNumber numeral.negative (text ++ rest) = readable numeral.value? rest := by
  rw [readNumber, scanNumeral_eq h hrest]
  simp only [bind, Except.bind]
  cases numeral.value? <;> rfl

/-- **A scalar is read as it is written**, however deep it stands. -/
lemma readScalar_eq (scalar : tree.IsScalar) (h : tree.WrittenAs written) (hrest : Delimited rest)
    (depth : ℕ) : readScalar (written ++ rest) = readable (tree.value? depth) rest := by
  cases tree with
  | null =>
    obtain rfl := h
    rfl
  | bool value =>
    cases value <;>
    · obtain rfl := h
      rfl
  | number numeral =>
    obtain ⟨unsigned, hunsigned, rfl⟩ := h
    have hread := readNumber_eq hunsigned hrest
    cases hsign : numeral.negative with
    | true =>
      rw [hsign] at hread
      exact hread
    | false =>
      rw [hsign] at hread
      obtain ⟨c, tail, rfl, hc⟩ := hunsigned.exists_start
      rw [if_neg Bool.false_ne_true, List.cons_append, readScalar, if_pos hc]
      · exact hread
      all_goals exact ne_of_isDigit hc rfl
  | text value =>
    obtain ⟨text, htext, rfl⟩ := h
    have hread := @readText_eq rest _ _ htext
    rw [List.cons_append, List.append_assoc, List.singleton_append, readScalar, hread]
    simp [Tree.value?, readable, bind, Except.bind, pure, Except.pure]
  | list items => exact scalar.elim
  | map entries => exact scalar.elim

/-- What starts as no list and no map is read as a scalar. -/
lemma readValue_scalar {blanks : List Char} {fuel depth : ℕ} (scalar : tree.IsScalar)
    (h : tree.WrittenAs written) (hblanks : IsBlanks blanks) (hrest : Delimited rest) :
    readValue (fuel + 1) depth (blanks ++ (written ++ rest)) =
      readable (tree.value? depth) rest := by
  obtain ⟨c, tail, rfl, starts, hlist, hmap⟩ := scalar.exists_start h
  have hread := readScalar_eq scalar h hrest depth
  rw [List.cons_append] at hread ⊢
  rw [readValue, skipBlanks_blanks hblanks starts.1]
  split
  · rename_i heq
    exact absurd (List.cons.inj heq).1 hlist
  · rename_i heq
    exact absurd (List.cons.inj heq).1 hmap
  · exact hread

mutual

/-- **A tree is read as it is written**, up to what may follow a value. -/
theorem readValue_eq (tree : Tree) {written blanks rest : List Char} {fuel depth : ℕ}
    (h : tree.WrittenAs written) (hblanks : IsBlanks blanks) (hrest : Delimited rest)
    (hfuel : written.length < fuel) :
    readValue fuel depth (blanks ++ (written ++ rest)) = readable (tree.value? depth) rest := by
  obtain ⟨fuel, rfl⟩ := Nat.exists_eq_add_of_lt (Nat.zero_lt_of_lt hfuel)
  rw [Nat.zero_add] at hfuel ⊢
  match tree, h with
  | .null, h => exact readValue_scalar trivial h hblanks hrest
  | .bool value, h => exact readValue_scalar trivial h hblanks hrest
  | .number numeral, h => exact readValue_scalar trivial h hblanks hrest
  | .text value, h => exact readValue_scalar trivial h hblanks hrest
  | .list items, h =>
    obtain ⟨inside, hinside, rfl⟩ := h
    rw [readValue, List.cons_append, skipBlanks_blanks hblanks (by decide)]
    have hread := @readItems_eq items _ rest fuel (depth - 1) true hinside
      (by simpa using hfuel)
    simp only [Tree.value?, hread]
    split_ifs
    · rfl
    · cases valuesOf? items (depth - 1) <;> rfl
  | .map entries, h =>
    obtain ⟨inside, hinside, rfl⟩ := h
    rw [readValue, List.cons_append, skipBlanks_blanks hblanks (by decide)]
    have hread := @readEntries_eq entries _ rest fuel (depth - 1) true hinside
      (by simpa using hfuel)
    simp only [Tree.value?, hread]
    split_ifs
    · rfl
    · cases entriesOf? entries (depth - 1) <;> rfl

/-- **The items of a list are read as they are written**, up to its end. -/
theorem readItems_eq (items : List Tree) {written rest : List Char} {fuel depth : ℕ} {first : Bool}
    (h : ItemsWrittenAs first items written) (hfuel : written.length < fuel) :
    readItems fuel depth first (written ++ rest) = readable (valuesOf? items depth) rest := by
  obtain ⟨fuel, rfl⟩ := Nat.exists_eq_add_of_lt (Nat.zero_lt_of_lt hfuel)
  rw [Nat.zero_add] at hfuel ⊢
  match items, h with
  | [], h =>
    obtain ⟨blanks, hblanks, rfl⟩ := h
    rw [List.append_assoc, readItems, List.singleton_append, nextItem_end first hblanks]
    rfl
  | item :: items, h =>
    obtain ⟨lead, value, more, hlead, hvalue, hmore, rfl⟩ := h
    obtain ⟨hlength, hdelimited⟩ := delimited_of_itemsWrittenAs hmore rest
    simp only [List.length_append] at hfuel
    have hpos := hvalue.length_pos
    have hitem := @readValue_eq item value [] _ fuel depth hvalue (List.forall_mem_nil _) hdelimited
      (by omega)
    have hitems := @readItems_eq items more rest fuel depth false hmore (by omega)
    rw [List.nil_append] at hitem
    rw [List.append_assoc, List.append_assoc, readItems, nextItem_value hlead hvalue]
    simp only [bind, Except.bind, if_true, hitem, valuesOf?]
    cases item.value? depth with
    | none => rfl
    | some read =>
      simp only [readable, hitems]
      cases valuesOf? items depth <;> rfl

/-- **The entries of a map are read as they are written**, up to its end. -/
theorem readEntries_eq (entries : List (String × Tree)) {written rest : List Char} {fuel depth : ℕ}
    {first : Bool} (h : EntriesWrittenAs first entries written) (hfuel : written.length < fuel) :
    readEntries fuel depth first (written ++ rest) =
      readable ((entriesOf? entries depth).map keyed) rest := by
  obtain ⟨fuel, rfl⟩ := Nat.exists_eq_add_of_lt (Nat.zero_lt_of_lt hfuel)
  rw [Nat.zero_add] at hfuel ⊢
  match entries, h with
  | [], h =>
    obtain ⟨blanks, hblanks, rfl⟩ := h
    rw [List.append_assoc, readEntries, List.singleton_append, nextKey_end first hblanks]
    rfl
  | (key, value) :: entries, h =>
    obtain ⟨lead, name, colon, text, more, hlead, hname, hcolon, hvalue, hmore, rfl⟩ := h
    obtain ⟨hlength, hdelimited⟩ := delimited_of_entriesWrittenAs hmore rest
    simp only [List.length_append, List.length_cons] at hfuel
    obtain ⟨blanks, hblanks, hbehind⟩ := @exists_expectColon (text ++ (more ++ rest)) _ hcolon
    have hread := @readValue_eq value text blanks _ fuel depth hvalue hblanks hdelimited (by omega)
    have hentries := @readEntries_eq entries more rest fuel depth false hmore (by omega)
    have hkey := @readText_eq (colon ++ (text ++ (more ++ rest))) _ _ hname
    simp only [List.append_assoc, List.cons_append]
    rw [readEntries, nextKey_lead hlead]
    simp only [bind, Except.bind, if_true, hkey, hbehind, hread, entriesOf?, String.ofList_toList]
    cases value.value? depth with
    | none => rfl
    | some read =>
      simp only [readable, hentries]
      cases entriesOf? entries depth <;> rfl

end

end EditBatch.Json
