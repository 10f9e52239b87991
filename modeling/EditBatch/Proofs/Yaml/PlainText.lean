import EditBatch.Proofs.Yaml.Passing
import EditBatch.Yaml.Reader
set_option autoImplicit false

/-!
# Texts without quotes read as they are written

A text without quotes is read up to the end of its line, where what follows stands too far left to
belong to it, or up to the colon behind a key.

## Main definitions

* `EditBatch.Yaml.isWordChar` — the characters of keys, names and numbers.

## Main results

* `EditBatch.Yaml.allowsPlain_of_word` — words need no quotes.
* `EditBatch.Yaml.exists_readInline_plain` — a text without quotes is read as a scalar with that
  text.
* `EditBatch.Yaml.readKey_eq` — a word in front of a colon is read as a key.
-/

namespace EditBatch.Yaml

variable {c : Char} {text rest tail : List Char} {gap : Gap} {state after : State}
  {context : Context}

/-! ## Steps -/

/-- Reading goes on with the next character. -/
lemma readPlainFrom_cons (hrest : state.rest = c :: rest) :
    readPlainFrom context gap state =
      if isBlank c then
        if gap.first.isSome && c == '\t' && (state.column : Int) ≤ context.indent then none
        else readPlainFrom context (gap.addBlank c) state.skip
      else if isBreak c then
        readPlainFrom context (gap.addBreak (breakText state.rest)) state.skipBreak
      else if !gap.isNone && (state.atMarker || c == '#'
          || (!context.flow && (state.column : Int) ≤ context.indent)) then
        some ([], state.withFresh (state.fresh || gap.first.isSome))
      else if context.flow && badColon c rest then none
      else if endsPlain context.flow c rest then
        some ([], state.withFresh (state.fresh || gap.first.isSome))
      else do
        let (text, after) ← readPlainFrom context {} state.skip
        return (gap.text ++ c :: text, after) := by
  rw [readPlainFrom]
  split
  · simp_all
  · rename_i heq
    obtain ⟨rfl, rfl⟩ := List.cons.inj (hrest.symm.trans heq)
    rfl

lemma readPlainFrom_space (hrest : state.rest = ' ' :: rest) :
    readPlainFrom context gap state = readPlainFrom context (gap.addBlank ' ') state.skip := by
  rw [readPlainFrom_cons hrest]
  simp [show isBlank ' ' = true by decide]

/-- A character that is no blank belongs to a scalar, if it belongs to the block and is no mark. -/
lemma readPlainFrom_char (hflow : context.flow = false) (hrest : state.rest = c :: rest)
    (hblank : isBlank c = false) (hbreak : isBreak c = false)
    (hinside : gap.isNone = true ∨ c ≠ '#' ∧ 0 < state.column ∧ context.indent < state.column)
    (hcolon : c = ':' → atGap rest = false)
    (h : readPlainFrom context {} state.skip = some (text, after)) :
    readPlainFrom context gap state = some (gap.text ++ c :: text, after) := by
  have hgap : (!gap.isNone && (state.atMarker || c == '#' ||
      (!context.flow && decide ((state.column : Int) ≤ context.indent)))) = false := by
    rcases hinside with hnone | ⟨hsign, hcolumn, hindent⟩
    · rw [hnone]
      rfl
    · simp [State.atMarker_eq_false hcolumn, hsign, hindent]
  have hends : endsPlain context.flow c rest = false := by
    simpa [endsPlain, hflow] using hcolon
  rw [readPlainFrom_cons hrest]
  rw [hgap, hends, h]
  simp [hblank, hbreak, hflow]

lemma atGap_append (h : atGap text = false) : atGap (text ++ tail) = false := by
  rcases text with _ | ⟨c, text⟩
  · cases h
  · exact h

/-- A text without marks has no colon in front of a gap and no number sign behind a blank. -/
lemma hasMark_cons_eq_false (h : hasMark (c :: text) = false) :
    (c = ':' → atGap text = false) ∧
      (isBlank c = true → ∀ d ∈ text.head?, d ≠ '#') ∧ hasMark text = false := by
  simp only [hasMark, Bool.or_eq_false_iff] at h ⊢
  obtain ⟨⟨hlast, hcolon⟩, hsign⟩ := h
  obtain ⟨hcolon, htextColon⟩ := hasPair_cons_eq_false hcolon
  obtain ⟨hsign, htextSign⟩ := hasPair_cons_eq_false hsign
  refine ⟨?_, ?_, ⟨?_, htextColon⟩, htextSign⟩
  · rintro rfl
    rcases text with _ | ⟨d, text⟩
    · simp at hlast
    · exact hcolon rfl d rfl
  · intro hc d hd
    have := hsign (by simp [hc]) d hd
    simpa using this
  · rcases text with _ | ⟨d, text⟩
    · rfl
    · simpa using hlast

/-- **A text without quotes is read up to its end**, behind blanks that have been read before: it is
a word, or it stands in its block. -/
lemma readPlainFrom_eq (hflow : context.flow = false)
    (hprintable : ∀ c ∈ text, isPrintable c = true ∧ isBreak c = false)
    (hmark : hasMark text = false) (hlast : text.getLast? ≠ some ' ')
    (hfirst : gap.first = none) (hclosed : text = [] → gap = {})
    (hsign : gap.isNone = true ∨ ∀ c ∈ text.head?, c ≠ '#')
    (hinside : gap.isNone = true ∧ ' ' ∉ text ∨
      0 < state.column ∧ context.indent < state.column)
    (hrest : state.rest = text ++ tail)
    (h : readPlainFrom context {} (state.pass text) = some ([], after)) :
    readPlainFrom context gap state = some (gap.text ++ text, after) := by
  induction text generalizing gap state with
  | nil =>
    rw [hclosed rfl]
    exact h
  | cons c text ih =>
    obtain ⟨⟨hc, hbreak⟩, htext⟩ := List.forall_mem_cons.mp hprintable
    obtain ⟨hcolon, hblankSign, htextMark⟩ := hasMark_cons_eq_false hmark
    have hpass : state.pass (c :: text) = state.skip.pass text := by
      rw [State.pass_cons, State.passChar_of_not_isBreak hbreak]
    have htextLast : text.getLast? ≠ some ' ' := by
      rcases text with _ | ⟨d, text⟩
      · simp
      · rwa [List.getLast?_cons_cons] at hlast
    have hskip : state.skip.rest = text ++ tail := State.rest_skip hrest
    rw [hpass] at h
    cases hblank : isBlank c
    · -- behind a character that is no blank the gap is closed
      refine readPlainFrom_char hflow hrest hblank hbreak ?_ (fun hc => atGap_append (hcolon hc)) ?_
      · rcases hsign with hnone | hsign
        · exact .inl hnone
        · rcases hinside with ⟨hnone, -⟩ | hinside
          · exact .inl hnone
          · exact .inr ⟨hsign c rfl, hinside⟩
      · refine ih htext htextMark htextLast rfl (fun _ => rfl) (.inl rfl) ?_ hskip h
        rcases hinside with ⟨-, hspace⟩ | ⟨hcolumn, hindent⟩
        · exact .inl ⟨rfl, fun hmem => hspace (List.mem_cons_of_mem c hmem)⟩
        · exact .inr ⟨Nat.succ_pos _, by simp only [State.skip]; omega⟩
    · obtain rfl := eq_space_of_isBlank hc hblank
      obtain ⟨hcolumn, hindent⟩ := hinside.resolve_left fun hword => hword.2 List.mem_cons_self
      rw [readPlainFrom_space hrest, ih htext htextMark htextLast _ _ _ _ hskip h,
        Gap.text_addBlank hfirst, List.append_assoc, List.singleton_append]
      · rw [Gap.first_addBlank, hfirst]
      · rintro rfl
        exact absurd rfl hlast
      · exact .inr (hblankSign rfl)
      · exact .inr ⟨Nat.succ_pos _, by simp only [State.skip]; omega⟩

/-! ## What ends a scalar -/

/-- A scalar without quotes ends in front of a colon with a gap behind it. -/
lemma readPlainFrom_colon (hrest : state.rest = ':' :: rest) (hgap : atGap rest = true)
    (hflow : context.flow = false) : readPlainFrom context {} state = some ([], state) := by
  rw [readPlainFrom_cons hrest]
  simp [show isBlank ':' = false by decide, show isBreak ':' = false by decide, Gap.isNone,
    endsPlain, hgap, hflow, State.withFresh_fresh]

/-- A break is put into the gap. -/
lemma readPlainFrom_newline (hrest : state.rest = '\n' :: rest) :
    readPlainFrom context gap state =
      readPlainFrom context (gap.addBreak ['\n']) state.skipBreak := by
  rw [readPlainFrom_cons hrest]
  simp [show isBlank '\n' = false by decide, show isBreak '\n' = true by decide, hrest, breakText]

/-- Spaces behind a break are dropped. -/
lemma readPlainFrom_spaces {count : ℕ} (hfirst : gap.first.isSome = true)
    (hrest : state.rest = spaces count ++ rest) :
    readPlainFrom context gap state = readPlainFrom context gap (state.pass (spaces count)) := by
  induction count generalizing state with
  | zero => rfl
  | succ count ih =>
    have hcons : state.rest = ' ' :: (spaces count ++ rest) := hrest
    have hgap : gap.addBlank ' ' = gap := if_pos hfirst
    rw [readPlainFrom_space hcons, hgap, ih (State.rest_skip hcons)]
    rfl

/-- A scalar without quotes ends behind a break, if nothing follows that belongs to its block. -/
lemma exists_readPlainFrom_outside {column : ℕ} (hflow : context.flow = false)
    (hindent : context.indent = column) (hfirst : gap.first.isSome = true)
    (hcolumn : state.column = 0) (houtside : Outside (column + 1) state.rest) :
    ∃ count rest, state.rest = spaces count ++ rest ∧
      readPlainFrom context gap state = some ([], (state.pass (spaces count)).withFresh true) := by
  rcases houtside with hnil | ⟨count, c, rest, hrest, hcount, hblank, hbreak, -⟩
  · refine ⟨0, [], hnil, ?_⟩
    rw [readPlainFrom]
    split
    · simp [hfirst, spaces]
    · simp_all
  · refine ⟨count, c :: rest, hrest, ?_⟩
    have hnext := State.rest_pass isPrintable_of_mem_spaces hrest
    have hstop : ((state.pass (spaces count)).column : Int) ≤ context.indent := by
      rw [State.column_pass isBreak_of_mem_spaces, length_spaces, hcolumn, hindent]
      omega
    have hgap : gap.isNone = false := by simp [Gap.isNone, hfirst]
    rw [readPlainFrom_spaces hfirst hrest, readPlainFrom_cons hnext]
    simp [hblank, hbreak, hgap, hflow, hstop, hfirst]

/-! ## Scalars -/

/-- What it takes for a text to need no quotes. -/
lemma allowsPlain_iff :
    allowsPlain text = true ↔
      (∀ c ∈ text, isPrintable c = true ∧ isBreak c = false) ∧ startsWithMark text = false ∧
        hasMark text = false ∧ text.head? ≠ some ' ' ∧ text.getLast? ≠ some ' ' := by
  simp only [allowsPlain, needsEscape, hasBreak, Bool.and_eq_true, Bool.not_eq_true',
    Bool.not_eq_false', List.all_eq_true, List.any_eq_false, Bool.not_eq_true, bne_iff_ne,
    forall_and]
  tauto

/-- What the first character of a text is not, if the text does not start with a mark. -/
lemma start_of_startsWithMark (h : startsWithMark (c :: text) = false) :
    c ∉ "#,[]\x7b\x7d&*!|>'\"%@`".toList ∧ (c = '?' ∨ c = '-' → atGap text = false) := by
  rw [startsWithMark] at h
  simp only [Bool.or_eq_false_iff, Bool.and_eq_false_iff, List.contains_eq_mem,
    decide_eq_false_iff_not, beq_eq_false_iff_ne] at h
  obtain ⟨-, hmark, hgap⟩ := h
  exact ⟨hmark, fun hc => hgap.resolve_left fun h => by tauto⟩

lemma startsPlain_of_allowsPlain (hallows : allowsPlain text = true) (hne : text ≠ [])
    (tail : List Char) : startsPlain false (text ++ tail) = true := by
  obtain ⟨hprintable, hstart, hmark, hspace, -⟩ := allowsPlain_iff.mp hallows
  obtain ⟨c, text, rfl⟩ := List.exists_cons_of_ne_nil hne
  obtain ⟨hmarks, hgap⟩ := start_of_startsWithMark hstart
  obtain ⟨hc, hbreak⟩ := hprintable c List.mem_cons_self
  have hblank := isBlank_eq_false_of_ne_space hc fun h => hspace (congrArg some h)
  have hcolon := (hasMark_cons_eq_false hmark).1
  have hothers : ∀ d ∈ indicators,
      d ∈ "#,[]\x7b\x7d&*!|>'\"%@`".toList ∨ d = '-' ∨ d = '?' ∨ d = ':' :=
    List.all_iff_forall_prop.mp (by decide)
  rw [List.cons_append, startsPlain, hblank, hbreak]
  by_cases hmem : c ∈ indicators
  · rcases (hothers c hmem).resolve_left hmarks with rfl | rfl | rfl
    · simp [hmem, atGap_append (hgap (.inr rfl))]
    · simp [hmem, atGap_append (hgap (.inl rfl))]
    · simp [hmem, atGap_append (hcolon rfl)]
  · simp [hmem]

/-- The text of a scalar decides how it is read where it starts a node. -/
lemma readInline_of_allowsPlain {fuel : ℕ} (hallows : allowsPlain text = true) (hne : text ≠ [])
    (hflow : context.flow = false) (hrest : state.rest = text ++ tail) {text' : List Char}
    (h : readPlain context state = some (text', after)) :
    readInline (fuel + 1) context {} state =
      some (.scalar none .plain (String.ofList text'), after) := by
  have hstarts := startsPlain_of_allowsPlain hallows hne tail
  obtain ⟨-, hstart, -⟩ := allowsPlain_iff.mp hallows
  obtain ⟨c, text, rfl⟩ := List.exists_cons_of_ne_nil hne
  obtain ⟨hmarks, -⟩ := start_of_startsWithMark hstart
  rw [readInline, hflow, hrest, hstarts, List.cons_append, List.head?_cons]
  split
  case h_6 => simp [h, finishScalar, State.keep]
  all_goals
    rename_i heq
    obtain rfl := Option.some.inj heq
    exact absurd hmarks (by decide)

/-- **A text without quotes is read as a scalar with that text**, up to what stands further left. -/
theorem exists_readInline_plain {fuel column : ℕ} (hallows : allowsPlain text = true)
    (hne : text ≠ []) (hflow : context.flow = false) (hindent : context.indent = column)
    (hcolumn : column < state.column) (houtside : Outside (column + 1) tail)
    (hrest : state.rest = text ++ '\n' :: tail) :
    ∃ after, readInline (fuel + 1) context {} state =
        some (.scalar none .plain (String.ofList text), after) ∧
      after.toToken false = ((state.pass (text ++ ['\n'])).withFresh true).toToken false := by
  obtain ⟨hprintable, -, hmark, -, hlast⟩ := allowsPlain_iff.mp hallows
  set line := text ++ ['\n'] with hline
  have hlinePrintable : ∀ c ∈ line, isPrintable c = true :=
    List.forall_mem_append.mpr
      ⟨fun c hmem => (hprintable c hmem).1, List.forall_mem_singleton.mpr (by decide)⟩
  have hbehind : (state.pass line).rest = tail :=
    State.rest_pass hlinePrintable (by simp [hline, hrest])
  have hbreak :
      ((state.withFresh false).pass text).skipBreak = (state.pass line).withFresh false := by
    rw [State.pass_withFresh, State.skipBreak_withFresh, hline, State.pass_append]
    rfl
  have hnewline : ((state.withFresh false).pass text).rest = '\n' :: tail :=
    State.rest_pass (fun c hmem => (hprintable c hmem).1) hrest
  obtain ⟨count, rest, htail, hread⟩ :=
    @exists_readPlainFrom_outside (({} : Gap).addBreak ['\n']) ((state.pass line).withFresh false)
      context column hflow hindent rfl
      (by rw [State.column_withFresh, hline, State.pass_append]; exact State.column_skipBreak _)
      (by rwa [State.rest_withFresh, hbehind])
  rw [← hbreak, ← readPlainFrom_newline hnewline, hbreak] at hread
  have hinside : 0 < (state.withFresh false).column ∧
      context.indent < (state.withFresh false).column := by
    rw [State.column_withFresh, hindent]
    omega
  have hplain : readPlain context state = some (text, _) :=
    readPlainFrom_eq hflow hprintable hmark hlast rfl (fun _ => rfl) (.inl rfl) (.inr hinside)
      hrest hread
  refine ⟨_, readInline_of_allowsPlain hallows hne hflow hrest hplain, ?_⟩
  rw [State.pass_withFresh, State.withFresh_withFresh]
  exact State.toToken_withFresh_spaces htail

/-! ## Words -/

/-- The characters of keys, names and numbers. -/
def isWordChar (c : Char) : Bool := c.isAlphanum || c == '_'

lemma isPrintable_of_isWordChar (h : isWordChar c = true) : isPrintable c = true := by
  have hrange : ' ' ≤ c ∧ c ≤ '~' := by
    change (c.isUpper || c.isLower || c.isDigit || c == '_') = true at h
    simp only [Bool.or_eq_true, beq_iff_eq] at h
    change 32 ≤ c.toNat ∧ c.toNat ≤ 126
    rcases h with ((hupper | hlower) | hdigit) | rfl
    · have hrange : 65 ≤ c.toNat ∧ c.toNat ≤ 90 := of_decide_eq_true hupper
      omega
    · obtain ⟨hlow, hhigh⟩ := Bool.and_eq_true_iff.mp hlower
      have hlow : 97 ≤ c.toNat := of_decide_eq_true hlow
      have hhigh : c.toNat ≤ 122 := of_decide_eq_true hhigh
      omega
    · obtain ⟨hlow, hhigh⟩ := Bool.and_eq_true_iff.mp hdigit
      have hlow : 48 ≤ c.toNat := of_decide_eq_true hlow
      have hhigh : c.toNat ≤ 57 := of_decide_eq_true hhigh
      omega
    · decide
  simp [isPrintable, hrange]

/-- Two neighbours have no two properties the first of which none of the characters has. -/
lemma hasPair_eq_false {first second : Char → Bool} (h : ∀ c ∈ text, first c = false) :
    hasPair first second text = false := by
  fun_induction hasPair first second text with
  | case1 a b rest ih =>
    rw [h a List.mem_cons_self, ih fun c hmem => h c (List.mem_cons_of_mem a hmem)]
    rfl
  | case2 => rfl

/-- **Words need no quotes**, as far as marks and blanks go. -/
theorem allowsPlain_of_word (hword : ∀ c ∈ text, isWordChar c = true) :
    allowsPlain text = true := by
  have hnot : ∀ d, isWordChar d = false → d ∉ text := by
    intro d hd hmem
    rw [hword d hmem] at hd
    cases hd
  have hne : ∀ c ∈ text, ∀ d, isWordChar d = false → c ≠ d := by
    rintro c hmem d hd rfl
    exact hnot c hd hmem
  have hgap : ∀ c ∈ text, isBlank c = false ∧ isBreak c = false := by
    intro c hmem
    have := hne c hmem
    simp [isBlank, isBreak, this ' ' rfl, this '\t' rfl, this '\r' rfl, this '\n' rfl,
      this '\u0085' rfl, this '\u2028' rfl, this '\u2029' rfl]
  refine allowsPlain_iff.mpr ⟨?_, ?_, ?_, ?_, ?_⟩
  · exact fun c hmem => ⟨isPrintable_of_isWordChar (hword c hmem), (hgap c hmem).2⟩
  · rcases text with _ | ⟨c, text⟩
    · rfl
    · have hmarks : c ∉ "#,[]\x7b\x7d&*!|>'\"%@`".toList := by
        intro hmem
        have hmark : ∀ d ∈ "#,[]\x7b\x7d&*!|>'\"%@`".toList, isWordChar d = false :=
          List.all_iff_forall_prop.mp (by decide)
        exact hnot c (hmark c hmem) List.mem_cons_self
      have := hne c List.mem_cons_self
      rw [startsWithMark, Bool.or_eq_false_iff, Bool.or_eq_false_iff, List.contains_eq_mem,
        List.contains_eq_mem]
      refine ⟨?_, decide_eq_false hmarks, ?_⟩
      · simp [this '-' rfl, this '.' rfl]
      · simp [this '?' rfl, this '-' rfl]
  · simp only [hasMark, Bool.or_eq_false_iff, beq_eq_false_iff_ne]
    refine ⟨⟨fun h => hnot ':' rfl (List.mem_of_getLast? h), ?_⟩, ?_⟩
    · exact hasPair_eq_false fun c hmem => by simp [hne c hmem ':' rfl]
    · exact hasPair_eq_false fun c hmem => by simp [hgap c hmem]
  · exact fun h => hnot ' ' rfl (List.mem_of_head? h)
  · exact fun h => hnot ' ' rfl (List.mem_of_getLast? h)

/-! ## Keys -/

/-- A node has no anchor and no tag if it starts with neither mark. -/
lemma readProperties_eq {pass : State → State} (hanchor : state.rest.head? ≠ some '&')
    (htag : state.rest.head? ≠ some '!') :
    readProperties context pass state = some ({}, state) := by
  have hproperty : readProperty context {} state = some none := by
    unfold readProperty
    split
    · exact absurd ‹_› hanchor
    · exact absurd ‹_› htag
    · rfl
  rw [readProperties, hproperty]
  rfl

/-- **A word in front of a colon is read as a key.** -/
theorem readKey_eq {fuel : ℕ} {name : List Char} (hword : ∀ c ∈ name, isWordChar c = true)
    (hne : name ≠ []) (hlength : name.length ≤ keyLimit) (hflow : context.flow = false)
    (hgap : atGap tail = true) (hrest : state.rest = name ++ ':' :: tail) :
    readKey (fuel + 1) context state =
      some (.scalar none .plain (String.ofList name), (state.pass name).withFresh false) := by
  have hallows := allowsPlain_of_word hword
  obtain ⟨hprintable, -, hmark, -, hlast⟩ := allowsPlain_iff.mp hallows
  have hcolon : ((state.withFresh false).pass name).rest = ':' :: tail :=
    State.rest_pass (fun c hmem => (hprintable c hmem).1) hrest
  have hspace : ' ' ∉ name := by
    intro hmem
    exact absurd (hword ' ' hmem) (by decide)
  have hplain : readPlain context state = some (name, (state.withFresh false).pass name) :=
    readPlainFrom_eq hflow hprintable hmark hlast rfl (fun _ => rfl) (.inl rfl)
      (.inl ⟨rfl, hspace⟩) hrest (readPlainFrom_colon hcolon hgap hflow)
  have hstart : ∀ d, isWordChar d = false → state.rest.head? ≠ some d := by
    intro d hd h
    rw [hrest, List.head?_append_of_ne_nil _ hne] at h
    rw [hword d (List.mem_of_head? h)] at hd
    cases hd
  have htoken :
      ((state.withFresh false).pass name).toToken false = (state.withFresh false).pass name :=
    State.toToken_eq_self (by rw [hcolon]; rintro c ⟨⟩; decide)
  have hmarkColon : ((state.withFresh false).pass name).atMark ':' = true := by
    rw [State.atMark_eq hcolon]
    simpa using hgap
  have hrange : isKeyRange state ((state.withFresh false).pass name) = true := by
    obtain ⟨hline, hindex⟩ :=
      @State.line_pass (state.withFresh false) name fun c hmem => (hprintable c hmem).2
    have hstate : (state.withFresh false).line = state.line ∧
        (state.withFresh false).index = state.index := ⟨rfl, rfl⟩
    rw [isKeyRange, hline, hindex, hstate.1, hstate.2]
    simpa using hlength
  rw [readKey, readProperties_eq (hstart '&' rfl) (hstart '!' rfl), ← State.pass_withFresh]
  simp [Properties.isNone, readInline_of_allowsPlain hallows hne hflow hrest hplain, htoken,
    hmarkColon, hrange]

end EditBatch.Yaml
