import EditBatch.Proofs.Yaml.Numerals
import EditBatch.Proofs.Yaml.Passing
import EditBatch.Yaml.Reader
set_option autoImplicit false

/-!
# Texts between quotes read as they are written

Between double quotes a text is a row of characters and escapes, each of which is read as one
character. Between single quotes it may have separators of lines and paragraphs; the blanks that
the writer adds behind them are the ones that the reader drops.

## Main results

* `EditBatch.Yaml.exists_writeEscape_eq` — an escape is read as the character it was written for.
* `EditBatch.Yaml.readInline_writeDouble`, `EditBatch.Yaml.readInline_writeSingle` — a text between
  quotes is read as a scalar with that text.
-/

namespace EditBatch.Yaml

variable {c : Char} {text tail : List Char} {gap : Gap} {state : State}

/-! ## Escapes -/

lemma isPrintable_of_mem_hexDigits {count number : ℕ} :
    ∀ c ∈ hexDigits count number, isPrintable c = true ∧ isBreak c = false := by
  have hdigits := @forall_mem_toDigits 16 (by decide)
    (fun c => isPrintable c.toUpper = true ∧ isBreak c.toUpper = false) (by decide) number
  intro c hmem
  rw [hexDigits, List.mem_append, List.mem_map] at hmem
  rcases hmem with hzero | ⟨d, hd, rfl⟩
  · rw [List.eq_of_mem_replicate hzero]
    decide
  · exact hdigits d hd

/-- An escape by the number of a character. -/
lemma readEscape_hexDigits {mark : Char} {count : ℕ}
    (h : (Nat.toDigits 16 c.toNat).length ≤ count)
    (hmark : isPrintable mark = true ∧ isBreak mark = false)
    (hread : ∀ rest,
      readEscape (mark :: rest) = (hexChar? count rest).map fun c => (c, count + 1)) :
    (∀ d ∈ mark :: hexDigits count c.toNat, isPrintable d = true ∧ isBreak d = false) ∧
      ∀ rest, readEscape (mark :: (hexDigits count c.toNat ++ rest)) =
        some (c, (hexDigits count c.toNat).length + 1) := by
  refine ⟨List.forall_mem_cons.mpr ⟨hmark, isPrintable_of_mem_hexDigits⟩, ?_⟩
  intro rest
  rw [hread, hexChar?_hexDigits h, length_hexDigits h]
  rfl

/-- An escape by a letter. -/
lemma readEscape_escapeLetter {letter : Char} (h : escapeLetter? c = some letter) :
    (isPrintable letter = true ∧ isBreak letter = false) ∧
      ∀ rest, readEscape (letter :: rest) = some (c, 1) := by
  unfold escapeLetter? at h
  split at h <;> cases h <;> exact ⟨by decide, fun rest => rfl⟩

/-- **An escape is read as the character it was written for**, up to its end. -/
lemma exists_writeEscape_eq (c : Char) :
    ∃ mark more, writeEscape c = '\\' :: mark :: more ∧
      (∀ d ∈ mark :: more, isPrintable d = true ∧ isBreak d = false) ∧
      ∀ rest, readEscape (mark :: (more ++ rest)) = some (c, more.length + 1) := by
  cases hletter : escapeLetter? c with
  | some letter =>
    obtain ⟨hcode, hread⟩ := readEscape_escapeLetter hletter
    exact ⟨letter, [], by rw [writeEscape, hletter], List.forall_mem_singleton.mpr hcode, hread⟩
  | none =>
    have hlt : c.toNat < 16 ^ 8 := c.val.toNat_lt
    have hlength : ∀ count, 0 < count → c.toNat < 16 ^ count →
        (Nat.toDigits 16 c.toNat).length ≤ count :=
      fun count hpos => (Nat.length_toDigits_le_iff (by decide) hpos).mpr
    rw [writeEscape, hletter]
    dsimp only
    split_ifs with hbyte hpair
    · have hdigits := hlength 2 (by decide) (by omega)
      exact ⟨_, _, rfl, readEscape_hexDigits hdigits (by decide) fun rest => rfl⟩
    · have hdigits := hlength 4 (by decide) (by omega)
      exact ⟨_, _, rfl, readEscape_hexDigits hdigits (by decide) fun rest => rfl⟩
    · have hdigits := hlength 8 (by decide) hlt
      exact ⟨_, _, rfl, readEscape_hexDigits hdigits (by decide) fun rest => rfl⟩

/-! ## Double quotes -/

/-- A character between double quotes is written without breaks. -/
lemma isPrintable_of_mem_writeDoubleChar :
    ∀ d ∈ writeDoubleChar c, isPrintable d = true ∧ isBreak d = false := by
  unfold writeDoubleChar
  split_ifs with h
  · obtain ⟨mark, more, heq, hcode, -⟩ := exists_writeEscape_eq c
    rw [heq]
    exact List.forall_mem_cons.mpr ⟨by decide, hcode⟩
  · simp only [Bool.or_eq_true, not_or, Bool.not_eq_true', Bool.not_eq_false,
      Bool.not_eq_true] at h
    exact List.forall_mem_singleton.mpr ⟨h.1.1.1, h.1.1.2⟩

lemma isPrintable_of_mem_writeDouble : ∀ c ∈ writeDouble text, isPrintable c = true := by
  simp only [writeDouble, List.forall_mem_append, List.forall_mem_cons, List.mem_flatMap]
  refine ⟨⟨by decide, ?_⟩, by decide, fun c hc => nomatch hc⟩
  rintro d ⟨c, -, hd⟩
  exact (isPrintable_of_mem_writeDoubleChar d hd).1

section Double

variable {rest code : List Char} {after : State}

/-- Reading goes on with the next character. -/
lemma readDoubleFrom_cons (hrest : state.rest = c :: rest) :
    readDoubleFrom gap state =
      if isBlank c then readDoubleFrom (gap.addBlank c) state.skip
      else if isBreak c then readDoubleFrom (gap.addBreak (breakText state.rest)) state.skipBreak
      else if state.atMarker then none
      else if c = '"' then some (gap.text, state.skip)
      else if c = '\\' then
        if rest.head?.any isBreak then do
          let (text, after) ← readDoubleFrom { first := some [] } state.skip.skipBreak
          return (gap.text ++ text, after)
        else do
          let (escaped, length) ← readEscape rest
          let (text, after) ← readDoubleFrom {} (state.skipMany (length + 1))
          return (gap.text ++ escaped :: text, after)
      else do
        let (text, after) ← readDoubleFrom {} state.skip
        return (gap.text ++ c :: text, after) := by
  rw [readDoubleFrom]
  split
  · simp_all
  · rename_i heq
    obtain ⟨rfl, rfl⟩ := List.cons.inj (hrest.symm.trans heq)
    rfl

lemma readDoubleFrom_space (hrest : state.rest = ' ' :: rest) :
    readDoubleFrom gap state = readDoubleFrom (gap.addBlank ' ') state.skip := by
  rw [readDoubleFrom_cons hrest]
  rfl

lemma readDoubleFrom_char (hrest : state.rest = c :: rest) (hcolumn : 0 < state.column)
    (hblank : isBlank c = false) (hbreak : isBreak c = false) (hquote : c ≠ '"') (hslash : c ≠ '\\')
    (h : readDoubleFrom {} state.skip = some (text, after)) :
    readDoubleFrom gap state = some (gap.text ++ c :: text, after) := by
  rw [readDoubleFrom_cons hrest]
  simp [hblank, hbreak, State.atMarker_eq_false hcolumn, hquote, hslash, h]

lemma readDoubleFrom_escape {mark : Char} (hrest : state.rest = '\\' :: mark :: (code ++ rest))
    (hcolumn : 0 < state.column) (hcode : ∀ d ∈ mark :: code, isBreak d = false)
    (hread : readEscape (mark :: (code ++ rest)) = some (c, code.length + 1))
    (h : readDoubleFrom {} (state.pass ('\\' :: mark :: code)) = some (text, after)) :
    readDoubleFrom gap state = some (gap.text ++ c :: text, after) := by
  have hmark : isBreak mark = false := (List.forall_mem_cons.mp hcode).1
  rw [← State.skipMany_eq_pass (List.forall_mem_cons.mpr ⟨by decide, hcode⟩), List.length_cons,
    List.length_cons] at h
  rw [readDoubleFrom_cons hrest]
  simp [show isBlank '\\' = false by decide, show isBreak '\\' = false by decide,
    State.atMarker_eq_false hcolumn, hmark, hread, h]

lemma readDoubleFrom_quote (hrest : state.rest = '"' :: rest) (hcolumn : 0 < state.column) :
    readDoubleFrom gap state = some (gap.text, state.skip) := by
  rw [readDoubleFrom_cons hrest]
  simp [show isBlank '"' = false by decide, show isBreak '"' = false by decide,
    State.atMarker_eq_false hcolumn]

end Double

/-- **A text between double quotes is read up to its closing quote**, behind blanks that have been
read before. -/
lemma readDoubleFrom_eq (hfirst : gap.first = none) (hcolumn : 0 < state.column)
    (hrest : state.rest = text.flatMap writeDoubleChar ++ '"' :: tail) :
    readDoubleFrom gap state =
      some (gap.text ++ text, state.pass (text.flatMap writeDoubleChar ++ ['"'])) := by
  induction text generalizing gap state with
  | nil =>
    rw [readDoubleFrom_quote hrest hcolumn, List.append_nil]
    rfl
  | cons c text ih =>
    rw [List.flatMap_cons, List.append_assoc] at hrest ⊢
    have hskip : 0 < state.skip.column := Nat.succ_pos _
    by_cases hescape : (!isPrintable c || isBreak c || c == '"' || c == '\\') = true
    · obtain ⟨mark, more, heq, hcode, hread⟩ := exists_writeEscape_eq c
      have hwrite : writeDoubleChar c = '\\' :: mark :: more := by
        rw [writeDoubleChar, if_pos hescape, heq]
      have hinline : ∀ d ∈ mark :: more, isBreak d = false := fun d hd => (hcode d hd).2
      rw [hwrite] at hrest ⊢
      rw [State.pass_append]
      refine readDoubleFrom_escape hrest hcolumn hinline (hread _) (ih rfl ?_ ?_)
      · rw [State.column_pass (List.forall_mem_cons.mpr ⟨by decide, hinline⟩)]
        omega
      · exact State.rest_pass (List.forall_mem_cons.mpr ⟨by decide, fun d hd => (hcode d hd).1⟩)
          hrest
    · have hwrite : writeDoubleChar c = [c] := by
        rw [writeDoubleChar, if_neg hescape]
      simp only [Bool.or_eq_true, not_or, Bool.not_eq_true', Bool.not_eq_false,
        Bool.not_eq_true, beq_iff_eq] at hescape
      obtain ⟨⟨⟨hprintable, hbreak⟩, hquote⟩, hslash⟩ := hescape
      rw [hwrite] at hrest ⊢
      have hnext : state.skip.rest = text.flatMap writeDoubleChar ++ '"' :: tail :=
        State.rest_skip hrest
      have hpass : state.pass ([c] ++ (text.flatMap writeDoubleChar ++ ['"'])) =
          state.skip.pass (text.flatMap writeDoubleChar ++ ['"']) := by
        rw [List.singleton_append, State.pass_cons, State.passChar_of_not_isBreak hbreak]
      rw [hpass]
      cases hblank : isBlank c
      · exact readDoubleFrom_char hrest hcolumn hblank hbreak hquote hslash (ih rfl hskip hnext)
      · obtain rfl := eq_space_of_isBlank hprintable hblank
        rw [readDoubleFrom_space hrest, ih _ hskip hnext]
        · simp [Gap.addBlank, Gap.text, hfirst]
        · simp [Gap.addBlank, hfirst]

/-- **A text between double quotes is read as a scalar with that text.** -/
theorem readInline_writeDouble {fuel : ℕ} {context : Context}
    (hrest : state.rest = writeDouble text ++ tail) :
    readInline (fuel + 1) context {} state =
      some (.scalar none .doubleQuoted (String.ofList text),
        (state.pass (writeDouble text)).withFresh false) := by
  have hcons : state.rest = '"' :: (text.flatMap writeDoubleChar ++ '"' :: tail) := by
    simpa [writeDouble] using hrest
  have hstart : (state.skip.withFresh false).rest = text.flatMap writeDoubleChar ++ '"' :: tail :=
    State.rest_skip hcons
  have hread : readDoubleFrom {} (state.skip.withFresh false) = some (text, _) :=
    readDoubleFrom_eq rfl (Nat.succ_pos _) hstart
  rw [readInline, hcons]
  simp only [List.head?_cons, readDouble, hread, State.pass_withFresh]
  rfl

/-! ## Single quotes -/

lemma isPrintable_of_mem_singleLines {indent : ℕ} (hprintable : ∀ c ∈ text, isPrintable c = true)
    (broken : Bool) : ∀ c ∈ singleLines indent broken text, isPrintable c = true := by
  have hmargin : ∀ broken : Bool, ∀ c ∈ if broken then spaces indent else [],
      isPrintable c = true := by
    intro broken
    cases broken
    · exact fun c hc => nomatch hc
    · exact isPrintable_of_mem_spaces
  induction text generalizing broken with
  | nil => exact hmargin broken
  | cons c text ih =>
    obtain ⟨hc, htext⟩ := List.forall_mem_cons.mp hprintable
    rw [singleLines]
    split
    · exact List.forall_mem_cons.mpr ⟨hc, ih htext true⟩
    · refine List.forall_mem_append.mpr ⟨List.forall_mem_append.mpr ⟨hmargin broken, ?_⟩,
        ih htext false⟩
      split
      · exact List.all_iff_forall_prop.mp (by decide)
      · exact List.forall_mem_singleton.mpr hc

lemma isPrintable_of_mem_writeSingle {indent : ℕ} (hallows : allowsSingle text = true) :
    ∀ c ∈ writeSingle indent text, isPrintable c = true := by
  simp only [allowsSingle, needsEscape, Bool.and_eq_true, Bool.not_eq_true',
    Bool.not_eq_false', List.all_eq_true] at hallows
  have hlines := @isPrintable_of_mem_singleLines text indent hallows.1.1 false
  simp only [writeSingle, List.forall_mem_append, List.forall_mem_cons]
  exact ⟨⟨by decide, hlines⟩, by decide, fun c hc => nomatch hc⟩

section Single

variable {rest : List Char} {after : State}

/-- Reading goes on with the next character. -/
lemma readSingleFrom_cons (hrest : state.rest = c :: rest) :
    readSingleFrom gap state =
      if isBlank c then readSingleFrom (gap.addBlank c) state.skip
      else if isBreak c then readSingleFrom (gap.addBreak (breakText state.rest)) state.skipBreak
      else if state.atMarker then none
      else if c = '\'' then
        if rest.head? = some '\'' then do
          let (text, after) ← readSingleFrom {} state.skip.skip
          return (gap.text ++ '\'' :: text, after)
        else some (gap.text, state.skip)
      else do
        let (text, after) ← readSingleFrom {} state.skip
        return (gap.text ++ c :: text, after) := by
  rw [readSingleFrom]
  split
  · simp_all
  · rename_i heq
    obtain ⟨rfl, rfl⟩ := List.cons.inj (hrest.symm.trans heq)
    rfl

lemma readSingleFrom_space (hrest : state.rest = ' ' :: rest) :
    readSingleFrom gap state = readSingleFrom (gap.addBlank ' ') state.skip := by
  rw [readSingleFrom_cons hrest]
  rfl

lemma readSingleFrom_break (hprintable : isPrintable c = true) (hbreak : isBreak c = true)
    (hrest : state.rest = c :: rest) :
    readSingleFrom gap state = readSingleFrom (gap.addBreak [c]) state.skipBreak := by
  rw [readSingleFrom_cons hrest]
  simp [isBlank_eq_false_of_isBreak hbreak, hbreak, hrest,
    breakText_of_isPrintable hprintable hbreak]

lemma readSingleFrom_char (hrest : state.rest = c :: rest) (hcolumn : 0 < state.column)
    (hblank : isBlank c = false) (hbreak : isBreak c = false) (hquote : c ≠ '\'')
    (h : readSingleFrom {} state.skip = some (text, after)) :
    readSingleFrom gap state = some (gap.text ++ c :: text, after) := by
  rw [readSingleFrom_cons hrest]
  simp [hblank, hbreak, State.atMarker_eq_false hcolumn, hquote, h]

lemma readSingleFrom_quotes (hrest : state.rest = '\'' :: '\'' :: rest)
    (hcolumn : 0 < state.column)
    (h : readSingleFrom {} state.skip.skip = some (text, after)) :
    readSingleFrom gap state = some (gap.text ++ '\'' :: text, after) := by
  rw [readSingleFrom_cons hrest]
  simp [show isBlank '\'' = false by decide, show isBreak '\'' = false by decide,
    State.atMarker_eq_false hcolumn, h]

lemma readSingleFrom_quote (hrest : state.rest = '\'' :: rest) (hcolumn : 0 < state.column)
    (htail : rest.head? ≠ some '\'') : readSingleFrom gap state = some (gap.text, state.skip) := by
  rw [readSingleFrom_cons hrest]
  simp [show isBlank '\'' = false by decide, show isBreak '\'' = false by decide,
    State.atMarker_eq_false hcolumn, htail]

/-- Spaces behind a break are dropped. -/
lemma readSingleFrom_spaces {count : ℕ} (hfirst : gap.first.isSome = true)
    (hrest : state.rest = spaces count ++ rest) :
    readSingleFrom gap state = readSingleFrom gap (state.pass (spaces count)) := by
  induction count generalizing state with
  | zero => rfl
  | succ count ih =>
    have hcons : state.rest = ' ' :: (spaces count ++ rest) := hrest
    have hgap : gap.addBlank ' ' = gap := if_pos hfirst
    rw [readSingleFrom_space hcons, hgap, ih (State.rest_skip hcons)]
    rfl

/-- The spaces that the writer adds behind a break. -/
def margin (indent : ℕ) (gap : Gap) : List Char := if gap.first.isSome then spaces indent else []

/-- Behind the spaces that the writer adds stands no mark of a document. -/
lemma readSingleFrom_margin {indent : ℕ} (hindent : 0 < indent)
    (hcolumn : gap.first = none → 0 < state.column)
    (hrest : state.rest = margin indent gap ++ rest) :
    readSingleFrom gap state = readSingleFrom gap (state.pass (margin indent gap)) ∧
      (state.pass (margin indent gap)).rest = rest ∧
      0 < (state.pass (margin indent gap)).column := by
  unfold margin at hrest ⊢
  split at hrest
  · rename_i hfirst
    rw [if_pos hfirst, State.column_pass isBreak_of_mem_spaces, length_spaces]
    exact ⟨readSingleFrom_spaces hfirst hrest, State.rest_pass isPrintable_of_mem_spaces hrest,
      by omega⟩
  · rename_i hfirst
    rw [if_neg hfirst]
    exact ⟨rfl, hrest, hcolumn (Option.not_isSome_iff_eq_none.mp hfirst)⟩

end Single

/-- What is known of a state in front of the rest of a text between single quotes, behind a gap that
has been read. -/
structure SingleAt (indent : ℕ) (tail : List Char) (gap : Gap) (text : List Char) (state : State) :
    Prop where
  printable : ∀ c ∈ text, isPrintable c = true ∧ c ≠ '\n'
  spaceBreak : hasSpaceBreak text = false
  breakSpace : hasBreakSpace text = false
  first_ne : gap.first ≠ some ['\n']
  opened : gap.first = none → 0 < state.column ∧ gap.more = [] ∧
    (gap.blanks = [] ∨ ∀ c ∈ text.head?, isBreak c = false)
  broken : gap.first.isSome = true → ∀ c ∈ text.head?, c ≠ ' '
  rest_eq : state.rest = singleLines indent gap.first.isSome text ++ '\'' :: tail

/-- The rest of a text between single quotes is read up to its closing quote. -/
def SingleReads (indent : ℕ) (gap : Gap) (text : List Char) (state : State) : Prop :=
  readSingleFrom gap state =
    some (gap.text ++ text, state.pass (singleLines indent gap.first.isSome text ++ ['\'']))

namespace SingleAt

variable {indent : ℕ}

/-- Behind a break of the text, the gap has one more break. -/
lemma step_break (h : SingleAt indent tail gap (c :: text) state) (hbreak : isBreak c = true) :
    SingleAt indent tail (gap.addBreak [c]) text state.skipBreak ∧
      (SingleReads indent (gap.addBreak [c]) text state.skipBreak →
        SingleReads indent gap (c :: text) state) := by
  obtain ⟨⟨hc, hline⟩, htext⟩ := List.forall_mem_cons.mp h.printable
  obtain ⟨hbehind, hbreakSpace⟩ := hasPair_cons_eq_false h.breakSpace
  have hsome := Gap.isSome_first_addBreak gap [c]
  have hlines : singleLines indent gap.first.isSome (c :: text) =
      c :: singleLines indent (gap.addBreak [c]).first.isSome text := by
    rw [singleLines, if_pos hbreak, hsome]
  have hgap : gap.first = none → gap.blanks = [] ∧ gap.more = [] := by
    intro hnone
    obtain ⟨-, hmore, hblanks⟩ := h.opened hnone
    exact ⟨hblanks.resolve_right fun hhead => by simp [hhead c rfl] at hbreak, hmore⟩
  obtain ⟨hgapText, hgapFirst⟩ := Gap.text_addBreak hline h.first_ne hgap
  have hrest := h.rest_eq
  rw [hlines, List.cons_append] at hrest
  refine ⟨⟨htext, (hasPair_cons_eq_false h.spaceBreak).2, hbreakSpace, hgapFirst, ?_, ?_, ?_⟩,
    fun hread => ?_⟩
  · intro hnone
    rw [hnone] at hsome
    cases hsome
  · intro _ d hd
    simpa using hbehind hbreak d hd
  · rw [State.skipBreak_eq (ne_cr_of_isPrintable hc) hrest]
  · rw [SingleReads, hlines, readSingleFrom_break hc hbreak hrest, hread, hgapText,
      List.cons_append, State.pass_cons, State.passChar_of_isBreak hbreak, List.append_assoc,
      List.singleton_append]

variable {next : State}

/-- Behind a character that is no blank the gap is closed. -/
lemma closed (h : SingleAt indent tail gap (c :: text) state) (hcolumn : 0 < next.column)
    (hrest : next.rest = singleLines indent false text ++ '\'' :: tail) :
    SingleAt indent tail {} text next where
  printable := (List.forall_mem_cons.mp h.printable).2
  spaceBreak := (hasPair_cons_eq_false h.spaceBreak).2
  breakSpace := (hasPair_cons_eq_false h.breakSpace).2
  first_ne := by simp
  opened _ := ⟨hcolumn, rfl, .inl rfl⟩
  broken := by simp
  rest_eq := hrest

/-- Behind a space the gap has one more blank. -/
lemma step_space (h : SingleAt indent tail gap (' ' :: text) state)
    (hrest : next.rest = ' ' :: (singleLines indent false text ++ '\'' :: tail)) :
    gap.first = none ∧ SingleAt indent tail (gap.addBlank ' ') text next.skip := by
  have hnone : gap.first = none := by
    rw [← Option.not_isSome_iff_eq_none]
    exact fun hsome => h.broken hsome ' ' rfl rfl
  obtain ⟨hspace, hspaceBreak⟩ := hasPair_cons_eq_false h.spaceBreak
  obtain ⟨-, hmore, -⟩ := h.opened hnone
  have hfirst : (gap.addBlank ' ').first = none := by rw [Gap.first_addBlank, hnone]
  refine ⟨hnone, (List.forall_mem_cons.mp h.printable).2, hspaceBreak,
    (hasPair_cons_eq_false h.breakSpace).2, by simp [hfirst], fun _ => ⟨Nat.succ_pos _, ?_, ?_⟩,
    by simp [hfirst], ?_⟩
  · simp [Gap.addBlank, hnone, hmore]
  · exact .inr (hspace rfl)
  · rw [hfirst]
    exact State.rest_skip hrest

/-- Any other character stands for itself. A quote is written twice. -/
lemma step_char (h : SingleAt indent tail gap (c :: text) state) (hbreak : isBreak c = false)
    (hcolumn : 0 < next.column)
    (hrest : next.rest = (if c == '\'' then ['\'', '\''] else [c]) ++
      (singleLines indent false text ++ '\'' :: tail))
    (hread : ∀ {gap state},
      SingleAt indent tail gap text state → SingleReads indent gap text state) :
    readSingleFrom gap next = some (gap.text ++ c :: text,
      next.pass ((if c == '\'' then ['\'', '\''] else [c]) ++
        (singleLines indent false text ++ ['\'']))) := by
  by_cases hquote : c = '\''
  · subst hquote
    have hclosed := hread (h.closed (Nat.succ_pos _) (State.rest_skip (State.rest_skip hrest)))
    rw [readSingleFrom_quotes hrest hcolumn hclosed]
    rfl
  · rw [if_neg (by simpa using hquote)] at hrest ⊢
    have hskip := State.rest_skip hrest
    rw [List.singleton_append, State.pass_cons, State.passChar_of_not_isBreak hbreak]
    cases hblank : isBlank c
    · have hclosed := hread (h.closed (Nat.succ_pos _) hskip)
      rw [readSingleFrom_char hrest hcolumn hblank hbreak hquote hclosed]
      rfl
    · obtain rfl := eq_space_of_isBlank (h.printable c List.mem_cons_self).1 hblank
      obtain ⟨hnone, hnext⟩ := h.step_space hrest
      have hspace := hread hnext
      rw [SingleReads, Gap.first_addBlank, hnone] at hspace
      rw [readSingleFrom_space hrest, hspace, Gap.text_addBlank hnone, List.append_assoc]
      rfl

end SingleAt

/-- **A text between single quotes is read up to its closing quote**, behind a gap that has been
read before. -/
lemma readSingleFrom_eq {indent : ℕ} (hindent : 0 < indent) (htail : tail.head? ≠ some '\'')
    (h : SingleAt indent tail gap text state) : SingleReads indent gap text state := by
  induction text generalizing gap state with
  | nil =>
    have hlines : singleLines indent gap.first.isSome [] = margin indent gap := rfl
    obtain ⟨hread, hnext, hcolumn⟩ :=
      readSingleFrom_margin hindent (fun hnone => (h.opened hnone).1) h.rest_eq
    rw [SingleReads, hlines, hread, readSingleFrom_quote hnext hcolumn htail, List.append_nil,
      State.pass_append]
    rfl
  | cons c text ih =>
    cases hbreak : isBreak c with
    | true =>
      obtain ⟨hnext, hread⟩ := h.step_break hbreak
      exact hread (ih hnext)
    | false =>
      have hlines : singleLines indent gap.first.isSome (c :: text) =
          margin indent gap ++ ((if c == '\'' then ['\'', '\''] else [c]) ++
            singleLines indent false text) := by
        rw [singleLines, if_neg (by simp [hbreak]), List.append_assoc]
        rfl
      have hrest := h.rest_eq
      rw [hlines, List.append_assoc, List.append_assoc] at hrest
      obtain ⟨hread, hnext, hcolumn⟩ :=
        readSingleFrom_margin hindent (fun hnone => (h.opened hnone).1) hrest
      rw [SingleReads, hlines, hread, h.step_char hbreak hcolumn hnext ih, ← State.pass_append,
        List.append_assoc, List.append_assoc]

/-- **A text between single quotes is read as a scalar with that text**, if no space stands next to
a break in it. -/
theorem readInline_writeSingle {fuel indent : ℕ} {context : Context} (hindent : 0 < indent)
    (hallows : allowsSingle text = true) (hline : '\n' ∉ text) (htail : tail.head? ≠ some '\'')
    (hrest : state.rest = writeSingle indent text ++ tail) :
    readInline (fuel + 1) context {} state =
      some (.scalar none .singleQuoted (String.ofList text),
        (state.pass (writeSingle indent text)).withFresh false) := by
  simp only [allowsSingle, needsEscape, Bool.and_eq_true, Bool.not_eq_true',
    Bool.not_eq_false', List.all_eq_true] at hallows
  obtain ⟨⟨hprintable, hspaceBreak⟩, hbreakSpace⟩ := hallows
  have hcons : state.rest = '\'' :: (singleLines indent false text ++ '\'' :: tail) := by
    simpa [writeSingle] using hrest
  have hat : SingleAt indent tail {} text (state.skip.withFresh false) := {
    printable := fun c hmem => ⟨hprintable c hmem, fun h => hline (h ▸ hmem)⟩
    spaceBreak := hspaceBreak
    breakSpace := hbreakSpace
    first_ne := by simp
    opened := fun _ => ⟨Nat.succ_pos _, rfl, .inl rfl⟩
    broken := by simp
    rest_eq := State.rest_skip hcons }
  have hread : readSingleFrom {} (state.skip.withFresh false) = some _ :=
    readSingleFrom_eq hindent htail hat
  rw [readInline, hcons]
  simp only [List.head?_cons, readSingle, hread, State.pass_withFresh]
  rfl

end EditBatch.Yaml
