import EditBatch.Proofs.Yaml.QuotedText
import EditBatch.Proofs.Yaml.PlainText
import EditBatch.Proofs.Yaml.BlockText
set_option autoImplicit false

/-!
# Values read as they are written

The reader meets a value behind its key. In whatever style a text is written, it reads the same text
there and goes on to what follows the value.

## Main definitions

* `EditBatch.Yaml.ReadsAs` — a value is read as a given node where it stands in a block.

## Main results

* `EditBatch.Yaml.readsAs_word` — a word is read as itself.
* `EditBatch.Yaml.readsAs_writeText` — every text is read as itself, in the style it is written in.
-/

namespace EditBatch.Yaml

/-- A written value is read as a node where it stands behind a key of the block in the given column,
up to what follows the value. -/
structure ReadsAs (column : ℕ) (written : List Char) (node : Node) : Prop where
  exists_start : ∃ c rest, written = c :: rest ∧ StartsToken c
  exists_end : ∃ front c, written = front ++ [c] ∧ isBreak c = true
  printable : ∀ c ∈ written, isPrintable c = true
  read : ∀ {fuel : ℕ} {context : Context} {state : State} {tail : List Char},
    context.indent = column → context.flow = false → state.fresh = false →
    column < state.column → Outside (column + 1) tail → state.rest = written ++ tail →
    ∃ after, readBlockNode (fuel + 4) context true {} state = some (node, after) ∧
      after.toToken false = ((state.pass written).withFresh true).toToken false

variable {column fuel : ℕ} {text tail : List Char} {context : Context} {state after : State}

/-! ## Which reader a value is given to -/

lemma atAny_eq {c : Char} {rest : List Char} (hrest : state.rest = c :: rest) (marks : String) :
    atAny marks state = decide (c ∈ marks.toList) := by
  rw [atAny, hrest, List.head?_cons, Option.any_some, List.contains_eq_mem]

/-- Behind a key the document goes on. -/
lemma atEnd_eq_false {c : Char} {rest : List Char} (hcolumn : 0 < state.column)
    (hrest : state.rest = c :: rest) : state.atEnd = false ∧ state.atDirective = false := by
  rw [State.atEnd, State.atMarker_eq_false hcolumn, hrest, State.atDirective,
    beq_eq_false_iff_ne.mpr (by omega), Bool.false_and]
  exact ⟨rfl, rfl⟩

/-- A value that starts with no mark of a block, an anchor or a tag is read as a node on its
line. -/
lemma readBlockNode_of_inline {c : Char} {rest : List Char} {dashes : Bool} {node : Node}
    (hindent : context.indent = column) (hcolumn : column < state.column)
    (hfresh : state.fresh = false) (hrest : state.rest = c :: rest)
    (hmarks : c ∉ "|>&!".toList) (hgap : c = '?' ∨ c = '-' → atGap rest = false)
    (h : readInline (fuel + 1) context {} state = some (node, after)) :
    readBlockNode (fuel + 3) context dashes {} state = some (node, after) := by
  obtain ⟨hend, hdirective⟩ := atEnd_eq_false (Nat.zero_lt_of_lt hcolumn) hrest
  have hblock : atAny "|>" state = false := by
    have hsubset : ∀ d ∈ "|>".toList, d ∈ "|>&!".toList := List.all_iff_forall_prop.mp (by decide)
    rw [atAny_eq hrest, decide_eq_false_iff_not]
    exact fun hmem => hmarks (hsubset c hmem)
  have hmark : ∀ mark, mark = '?' ∨ mark = '-' → state.atMark mark = false := by
    intro mark hmark
    rw [State.atMark_eq hrest]
    by_cases hc : c = mark
    · rw [hgap (hc ▸ hmark), Bool.and_false]
    · rw [beq_eq_false_iff_ne.mpr hc, Bool.false_and]
  have hproperties : readProperties context skipBlanks state = some ({}, state) := by
    refine readProperties_eq ?_ ?_ <;> rw [hrest, List.head?_cons] <;> rintro ⟨⟩ <;>
      exact hmarks (by decide)
  have hleft : ¬ (state.column : Int) < context.indent := by omega
  have hequal : ¬ (state.column : Int) = context.indent := by omega
  have hline : readLine (fuel + 2) context dashes {} state = some (node, after) := by
    rw [readLine, hproperties]
    exact h
  rw [readBlockNode]
  simp only [hend, hdirective, hblock, hmark '-' (.inr rfl), hmark '?' (.inl rfl), hleft, hequal,
    hfresh, hline]
  rfl

/-- A value that starts with the mark of a block is read as one. -/
lemma readBlockNode_of_block {rest : List Char} {dashes : Bool} (hindent : context.indent = column)
    (hcolumn : column < state.column) (hrest : state.rest = '|' :: rest)
    (h : readBlock context false state = some (text, after)) :
    readBlockNode (fuel + 1) context dashes {} state =
      some (.scalar none .literal (String.ofList text), after) := by
  obtain ⟨hend, hdirective⟩ := atEnd_eq_false (Nat.zero_lt_of_lt hcolumn) hrest
  have hfolded : atAny ">" state = false := atAny_eq hrest ">"
  have hblock : atAny "|>" state = true := atAny_eq hrest "|>"
  have hleft : ¬ (state.column : Int) < context.indent := by omega
  rw [readBlockNode]
  simp only [hend, hdirective, hblock, hfolded, hleft, h]
  rfl

/-! ## Styles -/

/-- A text that needs no quotes is read as itself. -/
lemma readsAs_plain (hallows : allowsPlain text = true) (hne : text ≠ []) (column : ℕ) :
    ReadsAs column (text ++ ['\n']) (.scalar none .plain (String.ofList text)) := by
  obtain ⟨hprintable, hstart, -, hspace, -⟩ := allowsPlain_iff.mp hallows
  obtain ⟨c, rest, rfl⟩ := List.exists_cons_of_ne_nil hne
  obtain ⟨hmarks, hgap⟩ := start_of_startsWithMark hstart
  obtain ⟨hc, hbreak⟩ := hprintable c List.mem_cons_self
  have hblank := isBlank_eq_false_of_ne_space hc fun h => hspace (congrArg some h)
  refine ⟨⟨c, rest ++ ['\n'], rfl, hblank, hbreak, ?_⟩, ⟨_, '\n', rfl, by decide⟩, ?_, ?_⟩
  · rintro rfl
    exact hmarks (by decide)
  · exact List.forall_mem_append.mpr
      ⟨fun d hd => (hprintable d hd).1, List.forall_mem_singleton.mpr (by decide)⟩
  · intro fuel context state tail hindent hflow hfresh hcolumn houtside hrest
    rw [List.append_assoc] at hrest
    obtain ⟨after, hread, htoken⟩ :=
      exists_readInline_plain hallows hne hflow hindent hcolumn houtside hrest
    have hothers : ∀ d ∈ "|>&!".toList, d ∈ "#,[]\x7b\x7d&*!|>'\"%@`".toList :=
      List.all_iff_forall_prop.mp (by decide)
    exact ⟨after, readBlockNode_of_inline hindent hcolumn hfresh hrest
      (fun hmem => hmarks (hothers c hmem)) (fun hc => atGap_append (hgap hc)) hread, htoken⟩

/-- A text between quotes is read as itself, if it is read so on its line. -/
lemma readsAs_quoted {quote : Char} {rest : List Char} {node : Node} {column : ℕ}
    (hquote : quote = '"' ∨ quote = '\'')
    (hprintable : ∀ c ∈ quote :: rest, isPrintable c = true)
    (h : ∀ {fuel : ℕ} {context : Context} {state : State} {tail : List Char},
      state.rest = quote :: rest ++ '\n' :: tail →
      readInline (fuel + 1) context {} state =
        some (node, (state.pass (quote :: rest)).withFresh false)) :
    ReadsAs column (quote :: rest ++ ['\n']) node := by
  have hstarts : StartsToken quote ∧ quote ∉ "|>&!".toList ∧ ¬ (quote = '?' ∨ quote = '-') := by
    rcases hquote with rfl | rfl <;> decide
  refine ⟨⟨quote, rest ++ ['\n'], rfl, hstarts.1⟩, ⟨_, '\n', rfl, by decide⟩, ?_, ?_⟩
  · exact List.forall_mem_append.mpr ⟨hprintable, List.forall_mem_singleton.mpr (by decide)⟩
  · intro fuel context state tail hindent hflow hfresh hcolumn houtside hrest
    rw [List.append_assoc] at hrest
    have hbehind : ((state.pass (quote :: rest)).withFresh false).rest = '\n' :: tail :=
      State.rest_pass hprintable hrest
    refine ⟨_, readBlockNode_of_inline hindent hcolumn hfresh hrest hstarts.2.1
      (fun hc => absurd hc hstarts.2.2) (h hrest), ?_⟩
    rw [State.toToken_break (by decide) hbehind, State.pass_append]
    have hline := State.pass_withFresh (state.pass (quote :: rest)) false ['\n']
    rw [State.pass_cons, State.pass_nil] at hline
    rw [hline, State.withFresh_withFresh]

/-- A text of several lines is read as itself. -/
lemma readsAs_block (hne : text ≠ []) (hprintable : ∀ c ∈ text, isPrintable c = true)
    (column : ℕ) : ReadsAs column (writeBlock (column + indentWidth) text ++ lineEnd text)
      (.scalar none .literal (String.ofList text)) := by
  refine ⟨⟨'|', _, rfl, by decide⟩, exists_writeBlock_eq_concat text,
    isPrintable_of_mem_writeBlock hne hprintable, ?_⟩
  intro fuel context state tail hindent hflow hfresh hcolumn houtside hrest
  obtain ⟨after, hread, htoken⟩ := exists_readBlock_eq hindent hne hprintable houtside hrest
  exact ⟨after, readBlockNode_of_block hindent hcolumn hrest hread, htoken⟩

/-! ## Texts and words -/

/-- A style is only chosen where it can be read back. -/
lemma styleFor_cases (text : String) :
    (styleFor text = .literal ∧ '\n' ∈ text.toList ∧ allowsBlock text.toList = true) ∨
      (styleFor text = .plain ∧ isAmbiguous text = false ∧ allowsPlain text.toList = true) ∨
      (styleFor text = .singleQuoted ∧ '\n' ∉ text.toList ∧ allowsSingle text.toList = true) ∨
      styleFor text = .doubleQuoted := by
  unfold styleFor
  simp only [List.contains_eq_mem, decide_eq_true_eq]
  split_ifs with hline hblock hplain hsingle
  · exact .inl ⟨rfl, hline, hblock⟩
  · exact .inr (.inr (.inr rfl))
  · rw [Bool.and_eq_true, Bool.not_eq_true'] at hplain
    exact .inr (.inl ⟨rfl, hplain⟩)
  · exact .inr (.inr (.inl ⟨rfl, hline, hsingle⟩))
  · exact .inr (.inr (.inr rfl))

/-- **Every text is read as itself**, in the style it is written in. -/
theorem readsAs_writeText (column : ℕ) (text : String) :
    ReadsAs column (writeText (column + indentWidth) text) (.scalar none (styleFor text) text) := by
  have htext : String.ofList text.toList = text := String.ofList_toList
  rcases styleFor_cases text with ⟨hstyle, hline, hblock⟩ | ⟨hstyle, hplain, hallows⟩ |
    ⟨hstyle, hline, hsingle⟩ | hstyle <;> rw [writeText, hstyle]
  · simp only [allowsBlock, needsEscape, Bool.and_eq_true, Bool.not_eq_true', Bool.not_eq_false',
      List.all_eq_true] at hblock
    have h := readsAs_block (List.ne_nil_of_mem hline) hblock.1.1 column
    rwa [htext] at h
  · -- the empty text would be read as null
    have hne : text.toList ≠ [] := by
      intro h
      rw [String.toList_eq_nil_iff] at h
      rw [h] at hplain
      cases hplain
    have h := readsAs_plain hallows hne column
    rwa [htext] at h
  · have hindent : 0 < column + indentWidth := Nat.succ_pos _
    have h := @readsAs_quoted '\'' (singleLines (column + indentWidth) false text.toList ++ ['\''])
      (.scalar none .singleQuoted (String.ofList text.toList)) column (.inr rfl)
      (isPrintable_of_mem_writeSingle hsingle)
      (readInline_writeSingle hindent hsingle hline (by simp))
    rwa [htext] at h
  · have h := @readsAs_quoted '"' _ (.scalar none .doubleQuoted (String.ofList text.toList)) column
      (.inl rfl) isPrintable_of_mem_writeDouble readInline_writeDouble
    rwa [htext] at h

/-- **A word is read as itself.** -/
theorem readsAs_word (column : ℕ) {word : String} (hword : ∀ c ∈ word.toList, isWordChar c = true)
    (hne : word.toList ≠ []) :
    ReadsAs column (word.toList ++ ['\n']) (.scalar none .plain word) := by
  have h := readsAs_plain (allowsPlain_of_word hword) hne column
  rwa [String.ofList_toList] at h

end EditBatch.Yaml
