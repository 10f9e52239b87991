import EditBatch.Proofs.Yaml.Passing
set_option autoImplicit false

/-!
# Texts of several lines read as they are written

As a block a text is a row of breaks and of lines, each with the breaks behind it. The reader gives
a line together with the breaks in front of it and keeps those behind the last line apart; the mark
in front of the block says how many of these belong to the text.

## Main definitions

* `EditBatch.Yaml.Segment` — a line with the breaks behind it.
* `EditBatch.Yaml.Segment.written` — segments as they are written.
* `EditBatch.Yaml.Segment.ending` — the breaks that end a block.

## Main results

* `EditBatch.Yaml.Segment.exists_eq` — what a text that ends its last line consists of.
* `EditBatch.Yaml.exists_readBreaks_eq`, `EditBatch.Yaml.Segment.exists_readLines_eq` — the empty
  lines and the lines of a block.
* `EditBatch.Yaml.exists_readBlock_eq` — a text written as a block is read as that text.
-/

namespace EditBatch.Yaml

/-- A line of a text with the breaks behind it. -/
structure Segment where
  line : List Char
  /-- The break that ends the line. -/
  first : Char
  /-- The breaks behind it. -/
  more : List Char
  line_ne_nil : line ≠ []
  isBreak_line : ∀ c ∈ line, isBreak c = false
  isBreak_first : isBreak first = true
  isBreak_more : ∀ c ∈ more, isBreak c = true

namespace Segment

/-- The text of a segment. -/
def text (segment : Segment) : List Char := segment.line ++ segment.first :: segment.more

/-- Segments as they are written, each line behind its spaces. -/
def written (indent : ℕ) (segments : List Segment) : List Char :=
  segments.flatMap fun segment => spaces indent ++ segment.text

lemma written_cons (indent : ℕ) (segment : Segment) (segments : List Segment) :
    written indent (segment :: segments) =
      spaces indent ++ (segment.text ++ written indent segments) := by
  simp [written]

/-- A text that ends its last line consists of breaks and segments. -/
lemma exists_eq {text : List Char} (hlast : ∀ c ∈ text.getLast?, isBreak c = true) :
    ∃ (breaks : List Char) (segments : List Segment),
      text = breaks ++ segments.flatMap Segment.text ∧ ∀ c ∈ breaks, isBreak c = true := by
  induction text with
  | nil => exact ⟨[], [], rfl, fun c hc => nomatch hc⟩
  | cons c rest ih =>
    have hrest : ∀ d ∈ rest.getLast?, isBreak d = true := by
      rcases rest with _ | ⟨d, rest⟩
      · exact fun d hd => nomatch hd
      · rwa [List.getLast?_cons_cons] at hlast
    obtain ⟨breaks, segments, heq, hbreaks⟩ := ih hrest
    cases hc : isBreak c
    · -- the character starts a line or belongs to the next one
      rcases breaks with _ | ⟨first, more⟩
      · rcases segments with _ | ⟨segment, segments⟩
        · obtain rfl : rest = [] := heq
          rw [hlast c rfl] at hc
          cases hc
        · refine ⟨[], { segment with
            line := c :: segment.line
            line_ne_nil := List.cons_ne_nil _ _
            isBreak_line := List.forall_mem_cons.mpr ⟨hc, segment.isBreak_line⟩ } :: segments,
            ?_, fun d hd => nomatch hd⟩
          rw [heq]
          rfl
      · obtain ⟨hfirst, hmore⟩ := List.forall_mem_cons.mp hbreaks
        refine ⟨[], ⟨[c], first, more, List.cons_ne_nil _ _, List.forall_mem_singleton.mpr hc,
          hfirst, hmore⟩ :: segments, ?_, fun d hd => nomatch hd⟩
        rw [heq]
        rfl
    · exact ⟨c :: breaks, segments, by rw [heq, List.cons_append],
        List.forall_mem_cons.mpr ⟨hc, hbreaks⟩⟩

end Segment

/-! ## Writing -/

variable {indent : ℕ} {breaks text tail : List Char} {state : State}

/-- Breaks are written as they are. -/
lemma blockLines_breaks (hbreaks : ∀ c ∈ breaks, isBreak c = true) (rest : List Char) :
    blockLines indent true (breaks ++ rest) = breaks ++ blockLines indent true rest := by
  induction breaks with
  | nil => rfl
  | cons c breaks ih =>
    obtain ⟨hc, hbreaks⟩ := List.forall_mem_cons.mp hbreaks
    rw [List.cons_append, blockLines, if_pos hc, ih hbreaks]
    rfl

/-- The rest of a line is written as it is. -/
lemma blockLines_line {line : List Char} (hline : ∀ c ∈ line, isBreak c = false) {first : Char}
    (hfirst : isBreak first = true) (rest : List Char) :
    blockLines indent false (line ++ first :: rest) =
      line ++ first :: blockLines indent true rest := by
  induction line with
  | nil => rw [List.nil_append, blockLines, if_pos hfirst, List.nil_append]
  | cons c line ih =>
    obtain ⟨hc, hline⟩ := List.forall_mem_cons.mp hline
    rw [List.cons_append, blockLines, if_neg (by simp [hc]), ih hline]
    rfl

/-- **The lines of a block** are its segments, each line behind its spaces. -/
lemma blockLines_segments (segments : List Segment) :
    blockLines indent true (segments.flatMap Segment.text) = Segment.written indent segments := by
  induction segments with
  | nil => rfl
  | cons segment segments ih =>
    obtain ⟨c, line, hline⟩ := List.exists_cons_of_ne_nil segment.line_ne_nil
    have hinline := segment.isBreak_line
    rw [hline, List.forall_mem_cons] at hinline
    rw [List.flatMap_cons, Segment.written_cons, Segment.text, hline, List.cons_append,
      List.cons_append, blockLines, if_neg (by simp [hinline.1]), List.append_assoc,
      List.cons_append, blockLines_line hinline.2 segment.isBreak_first,
      blockLines_breaks segment.isBreak_more, ih]
    simp

/-! ## Empty lines -/

/-- No more spaces are passed than a line of the block has in front of it. -/
lemma skipIndent_eq {width : ℕ} {rest : List Char} (hcolumn : state.column = 0)
    (hwidth : width ≤ indent) (hrest : state.rest = spaces width ++ rest)
    (hstop : ∀ c ∈ rest.head?, width = indent ∨ c ≠ ' ') :
    skipIndent (some indent) state = state.pass (spaces width) := by
  have hcount : min (state.rest.takeWhile (· == ' ')).length (indent - state.column) = width := by
    rw [hrest, hcolumn, List.takeWhile_append_of_pos (by simp [spaces]), List.length_append,
      length_spaces]
    rcases rest with _ | ⟨c, rest⟩
    · rw [List.takeWhile_nil, List.length_nil]
      omega
    · rcases hstop c rfl with rfl | hc
      · omega
      · rw [List.takeWhile_cons_of_neg (by simpa using hc), List.length_nil]
        omega
  rw [← State.skipMany_eq_pass isBreak_of_mem_spaces, length_spaces]
  simp only [skipIndent, hcount]

/-- **Empty lines are read together with the spaces of the line behind them.** -/
lemma exists_readBreaks_eq {width widest fuel : ℕ} {rest : List Char}
    (hprintable : ∀ c ∈ breaks, isPrintable c = true) (hbreaks : ∀ c ∈ breaks, isBreak c = true)
    (hcolumn : state.column = 0) (hwidth : width ≤ indent)
    (hrest : state.rest = breaks ++ (spaces width ++ rest))
    (hstop : ∀ c ∈ rest.head?, isBreak c = false ∧ (width = indent ∨ isBlank c = false))
    (hfuel : breaks.length < fuel) :
    ∃ widest', readBreaks (some indent) widest fuel state =
      some (breaks, widest', state.pass (breaks ++ spaces width)) := by
  induction breaks generalizing state widest fuel with
  | nil =>
    obtain ⟨fuel, rfl⟩ := Nat.exists_eq_add_one_of_ne_zero (Nat.ne_of_gt hfuel)
    have hskip : skipIndent (some indent) state = state.pass (spaces width) := by
      refine skipIndent_eq hcolumn hwidth hrest fun c hc => (hstop c hc).2.imp_right ?_
      rintro hblank rfl
      cases hblank
    have hnext := State.rest_pass isPrintable_of_mem_spaces hrest
    have hnextColumn : (state.pass (spaces width)).column = width := by
      rw [State.column_pass isBreak_of_mem_spaces, hcolumn, length_spaces, Nat.zero_add]
    rcases rest with _ | ⟨c, rest⟩
    · simp [readBreaks, hskip, hnext]
    · obtain ⟨hbreak, hshort⟩ := hstop c rfl
      have htab : (decide (width < indent) && c == '\t') = false := by
        rcases hshort with rfl | hblank
        · simp
        · simp only [isBlank, Bool.or_eq_false_iff] at hblank
          simp [hblank.2]
      simp only [readBreaks, hskip, hnext, hnextColumn, htab, hbreak]
      simp
  | cons c breaks ih =>
    obtain ⟨fuel, rfl⟩ := Nat.exists_eq_add_one_of_ne_zero (Nat.ne_of_gt (Nat.zero_lt_of_lt hfuel))
    obtain ⟨hc, hprintable⟩ := List.forall_mem_cons.mp hprintable
    obtain ⟨hbreak, hbreaks⟩ := List.forall_mem_cons.mp hbreaks
    have hblank := isBlank_eq_false_of_isBreak hbreak
    simp only [isBlank, Bool.or_eq_false_iff, beq_eq_false_iff_ne] at hblank
    have hskip : skipIndent (some indent) state = state :=
      skipIndent_eq hcolumn (Nat.zero_le indent) hrest (by rintro d ⟨⟩; exact .inr hblank.1)
    have hnext : state.skipBreak.rest = breaks ++ (spaces width ++ rest) := by
      rw [State.skipBreak_eq (ne_cr_of_isPrintable hc) hrest]
      rfl
    obtain ⟨widest', hread⟩ := @ih state.skipBreak (max widest state.column) fuel hprintable hbreaks
      (State.column_skipBreak state) hnext (Nat.lt_of_succ_lt_succ hfuel)
    have hcons : state.rest = c :: (breaks ++ (spaces width ++ rest)) := hrest
    refine ⟨widest', ?_⟩
    rw [List.cons_append, State.pass_cons, State.passChar_of_isBreak hbreak, readBreaks, hskip]
    simp [hcons, hblank.2, hbreak, hread, breakText_of_isPrintable hc hbreak]

/-- The first line shows the indentation, if it starts with neither a blank nor a break. -/
lemma readBreaks_none {width fuel : ℕ} {c : Char} {rest : List Char} (hcolumn : state.column = 0)
    (hrest : state.rest = spaces width ++ c :: rest) (hblank : isBlank c = false)
    (hbreak : isBreak c = false) :
    readBreaks none 0 (fuel + 1) state = some ([], width, state.pass (spaces width)) := by
  have hspace : c ≠ ' ' := by
    rintro rfl
    cases hblank
  have htab : c ≠ '\t' := by
    rintro rfl
    cases hblank
  have hskip : skipIndent none state = state.pass (spaces width) := by
    rw [← State.skipMany_eq_pass isBreak_of_mem_spaces, skipIndent, hrest,
      List.takeWhile_append_of_pos (by simp [spaces]),
      List.takeWhile_cons_of_neg (by simpa using hspace), List.append_nil]
  have hnext := State.rest_pass isPrintable_of_mem_spaces hrest
  have hnextColumn : (state.pass (spaces width)).column = width := by
    rw [State.column_pass isBreak_of_mem_spaces, hcolumn, length_spaces, Nat.zero_add]
  rw [readBreaks, hskip]
  simp [hnext, hnextColumn, htab, hbreak]

/-! ## Lines -/

/-- **A line is read together with the breaks in front of it**; those behind it are kept for the
next one. -/
lemma readLines_line {line first more rest body last others : List Char} {c : Char} {blank : Bool}
    {fuel widest : ℕ} {next after : State} (hne : line ≠ [])
    (hline : ∀ d ∈ line, isBreak d = false) (hprintable : isPrintable c = true)
    (hbreak : isBreak c = true) (hcolumn : state.column = indent)
    (hrest : state.rest = line ++ c :: rest)
    (hbreaks : readBreaks (some indent) 0 ((state.pass line).rest.length + 1)
      (state.pass line).skipBreak = some (breaks, widest, next))
    (hnext : readLines false indent fuel [c] breaks (line.head?.any isBlank) next =
      some (body, last, others, after)) :
    readLines false indent (fuel + 1) first more blank state =
      some (first ++ more ++ line ++ body, last, others, after) := by
  have hskip : state.skipLine = state.pass line :=
    State.skipLine_eq_pass hline hrest (by rintro d ⟨⟩; exact hbreak)
  have htake : state.rest.takeWhile (fun c => !isBreak c) = line := by
    rw [hrest, List.takeWhile_append_of_pos fun d hd => by rw [hline d hd]; rfl,
      List.takeWhile_cons_of_neg (by simp [hbreak]), List.append_nil]
  have hbehind : (state.pass line).rest = c :: rest := by
    rw [← hskip, State.skipLine, htake]
    simp [State.skipMany, hrest]
  obtain ⟨d, line, rfl⟩ := List.exists_cons_of_ne_nil hne
  rw [readLines]
  split
  · simp_all
  · rename_i heq
    rw [hrest, List.cons_append] at heq
    obtain ⟨rfl, -⟩ := List.cons.inj heq
    simp only [List.head?_cons, Option.any_some, hbehind, List.length_cons] at hbreaks hnext
    simp [hcolumn, htake, hskip, hbehind, hbreaks, hnext,
      breakText_of_isPrintable hprintable hbreak]

namespace Segment

/-- The spaces in front of the next line of a block, or of what follows the block. -/
def landing (indent count : ℕ) : List Segment → ℕ
  | [] => count
  | _ :: _ => indent

/-- The breaks that end a block: the first one and the others, those in front of its lines given. -/
def ending (first more : List Char) : List Segment → List Char × List Char
  | [] => (first, more)
  | segment :: segments => ending [segment.first] segment.more segments

/-- What comes behind the spaces of the next line. -/
lemma exists_landing {count : ℕ} {behind : List Char} (hcount : count < indent)
    (hbehind : ∀ c ∈ behind.head?, StartsToken c) (segments : List Segment) :
    ∃ rest, written indent segments ++ (spaces count ++ behind) =
        spaces (landing indent count segments) ++ rest ∧
      landing indent count segments ≤ indent ∧
      ∀ c ∈ rest.head?, isBreak c = false ∧
        (landing indent count segments = indent ∨ isBlank c = false) := by
  rcases segments with _ | ⟨segment, segments⟩
  · exact ⟨behind, rfl, Nat.le_of_lt hcount,
      fun c hc => ⟨(hbehind c hc).2.1, .inr (hbehind c hc).1⟩⟩
  · obtain ⟨d, line, hline⟩ := List.exists_cons_of_ne_nil segment.line_ne_nil
    refine ⟨segment.text ++ (written indent segments ++ (spaces count ++ behind)), ?_,
      Nat.le_refl _, ?_⟩
    · simp [written, landing]
    · rw [text, hline]
      rintro c ⟨⟩
      exact ⟨segment.isBreak_line d (by simp [hline]), .inl rfl⟩

/-- **A line of a block is read from behind its spaces on**, and with the breaks behind it the
spaces of the next line. -/
lemma exists_readBreaks_of_line {count : ℕ} {behind : List Char} (hcount : count < indent)
    (hbehind : ∀ c ∈ behind.head?, StartsToken c) {segment : Segment} {segments : List Segment}
    (hprintable : ∀ c ∈ segment.text, isPrintable c = true) {start : State}
    (hrest : start.rest = segment.text ++ (written indent segments ++ (spaces count ++ behind))) :
    (∃ widest, readBreaks (some indent) 0 ((start.pass segment.line).rest.length + 1)
      (start.pass segment.line).skipBreak = some (segment.more, widest,
        (start.pass segment.text).pass (spaces (landing indent count segments)))) ∧
      (start.pass segment.text).column = 0 := by
  obtain ⟨rest, htail, hwidth, hstop⟩ := exists_landing hcount hbehind segments
  rw [text, List.forall_mem_append, List.forall_mem_cons] at hprintable
  obtain ⟨hline, hfirst, hmore⟩ := hprintable
  rw [htail, text, List.append_assoc] at hrest
  have hend := State.rest_pass hline hrest
  have hbreak : (start.pass segment.line).skipBreak.rest =
      segment.more ++ (spaces (landing indent count segments) ++ rest) := by
    rw [State.skipBreak_eq (ne_cr_of_isPrintable hfirst) hend]
    rfl
  obtain ⟨widest, hread⟩ := @exists_readBreaks_eq indent segment.more _
    (landing indent count segments) 0 ((start.pass segment.line).rest.length + 1) rest hmore
    segment.isBreak_more (State.column_skipBreak _) hwidth hbreak hstop
    (by rw [hend]; simp; omega)
  have hpassed :
      (start.pass segment.line).skipBreak.pass segment.more = start.pass segment.text := by
    rw [text, State.pass_append, State.pass_cons, State.passChar_of_isBreak segment.isBreak_first]
  rw [State.pass_append, hpassed] at hread
  refine ⟨⟨widest, hread⟩, ?_⟩
  rw [← hpassed]
  exact State.column_pass_breaks (State.column_skipBreak _) segment.isBreak_more

/-- **The lines of a block** are read up to what follows it. The breaks behind the last one are
given apart. -/
lemma exists_readLines_eq {count : ℕ} {behind : List Char} (hcount : count < indent)
    (hbehind : ∀ c ∈ behind.head?, StartsToken c) {segments : List Segment}
    (hprintable : ∀ c ∈ segments.flatMap Segment.text, isPrintable c = true)
    {first more : List Char} {blank : Bool} {fuel : ℕ} (hcolumn : state.column = 0)
    (hrest : state.rest = written indent segments ++ (spaces count ++ behind))
    (hfuel : segments.length < fuel) :
    ∃ body, readLines false indent fuel first more blank
        (state.pass (spaces (landing indent count segments))) =
          some (body, (ending first more segments).1, (ending first more segments).2,
            state.pass (written indent segments ++ spaces count)) ∧
      body ++ (ending first more segments).1 ++ (ending first more segments).2 =
        first ++ more ++ segments.flatMap Segment.text := by
  induction segments generalizing state first more blank fuel with
  | nil =>
    obtain ⟨fuel, rfl⟩ := Nat.exists_eq_add_one_of_ne_zero (Nat.ne_of_gt hfuel)
    have hnext : (state.pass (spaces count)).rest = behind :=
      State.rest_pass isPrintable_of_mem_spaces hrest
    have hnextColumn : (state.pass (spaces count)).column ≠ indent := by
      rw [State.column_pass isBreak_of_mem_spaces, hcolumn, length_spaces]
      omega
    refine ⟨[], ?_, by simp [ending]⟩
    unfold readLines
    rcases behind with _ | ⟨c, behind⟩
    · simp [landing, hnext, ending, written]
    · simp [landing, hnext, hnextColumn, ending, written]
  | cons segment segments ih =>
    obtain ⟨fuel, rfl⟩ := Nat.exists_eq_add_one_of_ne_zero (Nat.ne_of_gt (Nat.zero_lt_of_lt hfuel))
    rw [List.flatMap_cons, List.forall_mem_append] at hprintable
    obtain ⟨hsegment, hprintable⟩ := hprintable
    rw [written_cons, List.append_assoc, List.append_assoc] at hrest
    -- the line starts behind its spaces
    have hstart := State.rest_pass isPrintable_of_mem_spaces hrest
    have hstartColumn : (state.pass (spaces indent)).column = indent := by
      rw [State.column_pass isBreak_of_mem_spaces, hcolumn, length_spaces, Nat.zero_add]
    obtain ⟨⟨widest, hbreaks⟩, hnextColumn⟩ :=
      exists_readBreaks_of_line hcount hbehind hsegment hstart
    have hnext := State.rest_pass hsegment hstart
    obtain ⟨body, hbody, heq⟩ := @ih ((state.pass (spaces indent)).pass segment.text) hprintable
      [segment.first] segment.more (segment.line.head?.any isBlank) fuel hnextColumn hnext
      (Nat.lt_of_succ_lt_succ hfuel)
    refine ⟨first ++ more ++ segment.line ++ body, ?_, ?_⟩
    · have hafter : state.pass (written indent (segment :: segments) ++ spaces count) =
          ((state.pass (spaces indent)).pass segment.text).pass
            (written indent segments ++ spaces count) := by
        simp only [written_cons, State.pass_append]
      have hline := hstart
      rw [text, List.append_assoc, List.cons_append] at hline
      rw [hafter]
      exact readLines_line segment.line_ne_nil segment.isBreak_line
        (hsegment _ (by simp [text])) segment.isBreak_first hstartColumn hline hbreaks hbody
    · simp only [ending, List.flatMap_cons, text, List.append_assoc] at heq ⊢
      rw [heq]
      simp

lemma length_le_length_written (segments : List Segment) :
    segments.length ≤ (written indent segments).length := by
  induction segments with
  | nil => exact Nat.le_refl 0
  | cons segment segments ih =>
    rw [written_cons, text]
    simp only [List.length_append, List.length_cons]
    omega

/-- There is more text left than there are lines. -/
lemma length_lt_length_rest {count : ℕ} {behind : List Char} {segments : List Segment}
    (hrest : state.rest = written indent segments ++ (spaces count ++ behind)) :
    segments.length <
      (state.pass (spaces (landing indent count segments))).rest.length + 1 := by
  rcases segments with _ | ⟨segment, segments⟩
  · exact Nat.succ_pos _
  · have := @length_le_length_written indent segments
    rw [written_cons, List.append_assoc] at hrest
    rw [landing, State.rest_pass isPrintable_of_mem_spaces hrest, text]
    simp only [List.length_append, List.length_cons]
    omega

end Segment

/-! ## The breaks at the end -/

/-- What is kept of the breaks at the end of a block. -/
def Chomp.kept (chomp : Chomp) (first more : List Char) : List Char :=
  match chomp with
  | .strip => []
  | .clip => first
  | .keep => first ++ more

/-- What ends the last line of a text that does not end it itself. -/
def lineEnd (text : List Char) : List Char := if text.getLast?.any isBreak then [] else ['\n']

lemma chompMark_concat (front : List Char) (c : Char) :
    chompMark (front ++ [c]) =
      if isBreak c then if front.getLast?.all isBreak then ['+'] else [] else ['-'] := by
  rw [chompMark, List.reverse_concat, List.getLast?_eq_head?_reverse]
  rcases front.reverse with _ | ⟨d, rest⟩
  · rfl
  · cases hc : isBreak c
    · simp [hc]
    · simp only [hc]
      rfl

lemma Segment.ending_concat (first more : List Char) (segments : List Segment) (segment : Segment) :
    ending first more (segments ++ [segment]) = ([segment.first], segment.more) := by
  induction segments generalizing first more with
  | nil => rfl
  | cons _ segments ih => exact ih _ _

/-- A text of breaks keeps all of them. -/
lemma kept_eq_of_breaks (hne : text ≠ []) (hbreaks : ∀ c ∈ text ++ lineEnd text, isBreak c = true) :
    ((chomp? (chompMark text)).getD .clip).kept [] (text ++ lineEnd text) = text := by
  obtain ⟨front, c, rfl⟩ := (List.eq_nil_or_concat' text).resolve_left hne
  have hc : isBreak c = true := hbreaks c (by simp)
  have hall : front.getLast?.all isBreak = true := by
    rw [Option.all_eq_true]
    exact fun d hd => hbreaks d (by simp [List.mem_of_getLast? hd])
  have hend : lineEnd (front ++ [c]) = [] := by
    rw [lineEnd, List.getLast?_concat, Option.any_some, if_pos hc]
  rw [chompMark_concat, if_pos hc, if_pos hall, hend, List.append_nil]
  rfl

/-- Of the breaks behind the last line a text keeps those that it has: all but the first one, which
it has not if it does not end its last line. -/
lemma append_kept_of_line {front more : List Char} {d first : Char} (hne : text ≠ [])
    (hd : isBreak d = false) (hfirst : isBreak first = true) (hmore : ∀ c ∈ more, isBreak c = true)
    (htext : text ++ lineEnd text = front ++ d :: first :: more) :
    front ++ d :: ((chomp? (chompMark text)).getD .clip).kept [first] more = text := by
  obtain ⟨init, c, rfl⟩ := (List.eq_nil_or_concat' text).resolve_left hne
  rw [lineEnd, List.getLast?_concat, Option.any_some] at htext
  rw [chompMark_concat]
  rcases List.eq_nil_or_concat' more with rfl | ⟨others, e, rfl⟩
  · cases hc : isBreak c with
    | false =>
      have hline : (init ++ [c]) ++ ['\n'] = (front ++ [d]) ++ [first] := by simpa [hc] using htext
      rw [(List.append_inj' hline rfl).1]
      rfl
    | true =>
      have hline : init ++ [c] = (front ++ [d]) ++ [first] := by simpa [hc] using htext
      obtain ⟨rfl, hlast⟩ := List.append_inj' hline rfl
      rw [List.getLast?_concat, hlast]
      simp [hd, chomp?, Chomp.kept]
  · have hends : ∀ x ∈ (front ++ d :: first :: others).getLast?, isBreak x = true := by
      rw [← List.singleton_append, ← List.append_assoc,
        List.getLast?_append_of_ne_nil _ (List.cons_ne_nil _ _)]
      intro x hx
      rcases List.mem_cons.mp (List.mem_of_getLast? hx) with rfl | hmem
      · exact hfirst
      · exact hmore x (List.mem_append_left _ hmem)
    cases hc : isBreak c with
    | false =>
      -- the last character would be a break
      have hline : (init ++ [c]) ++ ['\n'] = (front ++ d :: first :: others) ++ [e] := by
        simpa [hc] using htext
      rw [← (List.append_inj' hline rfl).1] at hends
      rw [hends c (List.getLast?_concat)] at hc
      cases hc
    | true =>
      have hline : init ++ [c] = (front ++ d :: first :: others) ++ [e] := by simpa [hc] using htext
      obtain ⟨rfl, hlast⟩ := List.append_inj' hline rfl
      rw [if_pos rfl, if_pos ((Option.all_eq_true _ _).mpr hends), hlast]
      simp [chomp?, Chomp.kept]

/-- **The mark of a block says which of the breaks at its end belong to the text.** -/
lemma append_kept_eq {body : List Char} {segments : List Segment} (hne : text ≠ [])
    (hbreaks : ∀ c ∈ breaks, isBreak c = true)
    (htext : text ++ lineEnd text = breaks ++ segments.flatMap Segment.text)
    (hbody :
      body ++ (Segment.ending [] breaks segments).1 ++ (Segment.ending [] breaks segments).2 =
        breaks ++ segments.flatMap Segment.text) :
    body ++ ((chomp? (chompMark text)).getD .clip).kept (Segment.ending [] breaks segments).1
      (Segment.ending [] breaks segments).2 = text := by
  rcases List.eq_nil_or_concat' segments with rfl | ⟨init, segment, rfl⟩
  · rw [List.flatMap_nil, List.append_nil] at htext hbody
    obtain rfl : body = [] := by
      simpa [Segment.ending] using hbody
    rw [← htext] at hbreaks
    rw [Segment.ending, ← htext]
    exact kept_eq_of_breaks hne hbreaks
  · -- in front of the breaks at the end stands a character that is none
    obtain ⟨line, d, hline⟩ :=
      (List.eq_nil_or_concat' segment.line).resolve_left segment.line_ne_nil
    have hd : isBreak d = false := segment.isBreak_line d (by simp [hline])
    obtain ⟨front, hfront⟩ : ∃ front, breaks ++ (init ++ [segment]).flatMap Segment.text =
        front ++ d :: segment.first :: segment.more :=
      ⟨breaks ++ init.flatMap Segment.text ++ line, by simp [Segment.text, hline]⟩
    rw [Segment.ending_concat, hfront] at hbody
    rw [hfront] at htext
    obtain rfl : body = front ++ [d] := by
      have hsplit : front ++ d :: segment.first :: segment.more =
          (front ++ [d]) ++ ([segment.first] ++ segment.more) := by simp
      rw [hsplit, List.append_assoc] at hbody
      exact List.append_cancel_right hbody
    rw [Segment.ending_concat, List.append_assoc]
    exact append_kept_of_line hne hd segment.isBreak_first segment.isBreak_more htext

/-! ## Marks -/

lemma incrementMark_eq (text : List Char) :
    incrementMark text = [] ∨ incrementMark text = ['2'] := by
  unfold incrementMark
  split
  · exact .inr rfl
  · exact .inl rfl

lemma chompMark_eq (hne : text ≠ []) :
    chompMark text = [] ∨ chompMark text = ['-'] ∨ chompMark text = ['+'] := by
  obtain ⟨front, c, rfl⟩ := (List.eq_nil_or_concat' text).resolve_left hne
  rw [chompMark_concat]
  split_ifs <;> simp

/-- **The marks of a block are read as they are written.** -/
lemma readMarks_eq {increment chomp rest : List Char}
    (hincrement : increment = [] ∨ increment = ['2'])
    (hchomp : chomp = [] ∨ chomp = ['-'] ∨ chomp = ['+'])
    (hrest : state.rest = increment ++ chomp ++ '\n' :: rest) :
    readMarks state = some ((chomp? chomp).getD .clip, if increment = [] then none else some 2,
      state.pass (increment ++ chomp)) := by
  have hmarks : isBreak '+' = false ∧ isBreak '-' = false ∧ isBreak '2' = false := by decide
  rcases hincrement with rfl | rfl <;> rcases hchomp with rfl | rfl | rfl
  all_goals
    have hskip := State.rest_skip hrest
    simp [readMarks, readChomp, readIncrement, chomp?, hrest, hskip, State.pass_cons,
      State.passChar, hmarks]

/-! ## Blocks -/

lemma blockLines_concat {c : Char} (hc : isBreak c = true) (broken : Bool) :
    blockLines indent broken (text ++ [c]) = blockLines indent broken text ++ [c] := by
  induction text generalizing broken with
  | nil => simp [blockLines, hc]
  | cons d text ih =>
    rw [List.cons_append, blockLines, blockLines]
    split
    · rw [ih, List.cons_append]
    · rw [ih]
      simp

/-- What follows the marks of a block. -/
lemma blockLines_append_lineEnd :
    blockLines indent true text ++ lineEnd text =
      blockLines indent true (text ++ lineEnd text) := by
  unfold lineEnd
  split
  · rw [List.append_nil, List.append_nil]
  · rw [blockLines_concat (by decide)]

/-- The indentation of a block, if a mark says it. -/
def knownIndent (column : ℕ) (text : List Char) : Option ℕ :=
  if incrementMark text = [] then none else some (column + indentWidth)

/-- A text that starts with no break starts with a line. -/
lemma Segment.exists_written_eq {c : Char} {rest : List Char} {segments : List Segment}
    (hc : isBreak c = false) (hbreaks : ∀ b ∈ breaks, isBreak b = true)
    (htext : c :: rest = breaks ++ segments.flatMap Segment.text) :
    breaks = [] ∧ ∀ indent count, landing indent count segments = indent ∧
      ∃ more, written indent segments = spaces indent ++ c :: more := by
  rcases breaks with _ | ⟨b, breaks⟩
  · rcases segments with _ | ⟨segment, segments⟩
    · cases htext
    · obtain ⟨d, line, hline⟩ := List.exists_cons_of_ne_nil segment.line_ne_nil
      have hcons : c :: rest = d :: (line ++ segment.first :: segment.more ++
          segments.flatMap Segment.text) := by
        simpa [Segment.text, hline] using htext
      obtain ⟨rfl, -⟩ := List.cons.inj hcons
      refine ⟨rfl, fun indent count => ⟨rfl, line ++ segment.first :: segment.more ++
        written indent segments, ?_⟩⟩
      simp [written, Segment.text, hline]
  · obtain ⟨rfl, -⟩ := List.cons.inj htext
    rw [hbreaks c List.mem_cons_self] at hc
    cases hc

/-- A text with no mark for its indentation starts with neither a blank nor a break. -/
lemma first_of_incrementMark {c : Char} (hprintable : isPrintable c = true)
    (h : incrementMark (c :: text) = []) : isBlank c = false ∧ isBreak c = false := by
  rw [incrementMark, List.head?_cons, Option.any_some] at h
  split at h
  · cases h
  · rename_i hfirst
    rw [Bool.not_eq_true, Bool.or_eq_false_iff, beq_eq_false_iff_ne] at hfirst
    exact ⟨isBlank_eq_false_of_ne_space hprintable hfirst.1, hfirst.2⟩

/-- **The indentation of a block is known from its mark or from its first line.** -/
lemma exists_readFirstBreaks {column count : ℕ} {behind : List Char} {segments : List Segment}
    (hcount : count < column + indentWidth) (hbehind : ∀ c ∈ behind.head?, StartsToken c)
    (hne : text ≠ []) (hprintable : ∀ c ∈ text ++ lineEnd text, isPrintable c = true)
    (hbreaks : ∀ c ∈ breaks, isBreak c = true)
    (htext : text ++ lineEnd text = breaks ++ segments.flatMap Segment.text)
    (hcolumn : state.column = 0)
    (hrest : state.rest = breaks ++ (Segment.written (column + indentWidth) segments ++
      (spaces count ++ behind))) :
    ∃ widest, readBreaks (knownIndent column text) 0 (state.rest.length + 1) state =
        some (breaks, widest, state.pass
          (breaks ++ spaces (Segment.landing (column + indentWidth) count segments))) ∧
      (knownIndent column text).getD (max widest (max (column + 1) 1)) = column + indentWidth := by
  unfold knownIndent
  split
  · rename_i hmark
    obtain ⟨c, text, rfl⟩ := List.exists_cons_of_ne_nil hne
    obtain ⟨hblank, hbreak⟩ := first_of_incrementMark (hprintable c List.mem_cons_self) hmark
    obtain ⟨rfl, hlines⟩ := Segment.exists_written_eq hbreak hbreaks htext
    obtain ⟨hlanding, more, hwritten⟩ := hlines (column + indentWidth) count
    rw [hwritten, List.nil_append, List.append_assoc, List.cons_append] at hrest
    rw [hlanding]
    refine ⟨column + indentWidth, readBreaks_none hcolumn hrest hblank hbreak, ?_⟩
    simp only [indentWidth, Option.getD_none]
    omega
  · obtain ⟨rest, htail, hwidth, hstop⟩ := Segment.exists_landing hcount hbehind segments
    have hbreaksPrintable : ∀ c ∈ breaks, isPrintable c = true :=
      fun c hmem => hprintable c (by rw [htext]; exact List.mem_append_left _ hmem)
    obtain ⟨widest, hread⟩ := @exists_readBreaks_eq (column + indentWidth) breaks state _ 0
      (state.rest.length + 1) rest hbreaksPrintable hbreaks hcolumn hwidth (by rw [hrest, htail])
      hstop (by rw [hrest, List.length_append]; omega)
    exact ⟨widest, hread, rfl⟩

/-- Behind the marks of a block comes the next line. -/
lemma skipMarkLine_eq {rest : List Char} (hrest : state.rest = '\n' :: rest) :
    skipMarkLine state = some state.skipBreak := by
  simp [skipMarkLine, hrest, show isBlank '\n' = false by decide,
    show isBreak '\n' = true by decide]

lemma isPrintable_of_mem_lineEnd : ∀ c ∈ lineEnd text, isPrintable c = true := by
  unfold lineEnd
  split
  · exact fun c hc => nomatch hc
  · exact List.forall_mem_singleton.mpr (by decide)

lemma isBreak_of_getLast?_lineEnd (text : List Char) :
    ∀ c ∈ (text ++ lineEnd text).getLast?, isBreak c = true := by
  unfold lineEnd
  split
  · rename_i h
    rw [List.append_nil]
    intro c hc
    rwa [hc] at h
  · rw [List.getLast?_concat]
    rintro c ⟨⟩
    decide

lemma isPrintable_of_mem_marks (hne : text ≠ []) :
    ∀ c ∈ incrementMark text ++ chompMark text, isPrintable c = true := by
  rcases incrementMark_eq text with h | h <;> rcases chompMark_eq hne with h' | h' | h' <;>
    rw [h, h'] <;> exact List.all_iff_forall_prop.mp (by decide)

lemma isPrintable_of_mem_blockLines (hprintable : ∀ c ∈ text, isPrintable c = true)
    (broken : Bool) : ∀ c ∈ blockLines indent broken text, isPrintable c = true := by
  induction text generalizing broken with
  | nil => exact fun c hc => nomatch hc
  | cons c text ih =>
    obtain ⟨hc, htext⟩ := List.forall_mem_cons.mp hprintable
    rw [blockLines]
    split
    · exact List.forall_mem_cons.mpr ⟨hc, ih htext true⟩
    · refine List.forall_mem_append.mpr ⟨?_, List.forall_mem_cons.mpr ⟨hc, ih htext false⟩⟩
      split
      · exact isPrintable_of_mem_spaces
      · exact fun d hd => nomatch hd

/-- A block needs no character that has to be escaped. -/
lemma isPrintable_of_mem_writeBlock (hne : text ≠ [])
    (hprintable : ∀ c ∈ text, isPrintable c = true) :
    ∀ c ∈ writeBlock indent text ++ lineEnd text, isPrintable c = true := by
  refine List.forall_mem_append.mpr ⟨?_, isPrintable_of_mem_lineEnd⟩
  have hmarks := isPrintable_of_mem_marks hne
  have hlines := @isPrintable_of_mem_blockLines indent text hprintable true
  simp only [writeBlock, List.forall_mem_append, List.forall_mem_cons] at hmarks ⊢
  exact ⟨⟨⟨by decide, hmarks.1⟩, hmarks.2⟩, by decide, hlines⟩

/-- A block ends with a break. -/
lemma exists_writeBlock_eq_concat (text : List Char) :
    ∃ front c, writeBlock indent text ++ lineEnd text = front ++ [c] ∧ isBreak c = true := by
  unfold lineEnd
  split
  · rename_i h
    rcases List.eq_nil_or_concat' text with rfl | ⟨front, c, rfl⟩
    · cases h
    · rw [List.getLast?_concat, Option.any_some] at h
      refine ⟨'|' :: incrementMark (front ++ [c]) ++ chompMark (front ++ [c]) ++
        '\n' :: blockLines indent true front, c, ?_, h⟩
      rw [writeBlock, blockLines_concat h]
      simp
  · exact ⟨_, '\n', rfl, by decide⟩

/-- What is read behind the marks of a block: the breaks in front of its lines, its indentation, and
its lines with the breaks at its end, of which the mark keeps those of the text. -/
lemma exists_readLines_of_text {column count : ℕ} {behind : List Char} (hcount : count ≤ column)
    (hbehind : ∀ c ∈ behind.head?, StartsToken c) (hne : text ≠ [])
    (hprintable : ∀ c ∈ text ++ lineEnd text, isPrintable c = true) (hcolumn : state.column = 0)
    (hrest : state.rest = blockLines (column + indentWidth) true (text ++ lineEnd text) ++
      (spaces count ++ behind)) :
    ∃ breaks widest next body first more,
      readBreaks (knownIndent column text) 0 (state.rest.length + 1) state =
          some (breaks, widest, next) ∧
        (knownIndent column text).getD (max widest (max (column + 1) 1)) = column + indentWidth ∧
        readLines false (column + indentWidth) (next.rest.length + 1) [] breaks false next =
          some (body, first, more, (state.pass
            (blockLines (column + indentWidth) true (text ++ lineEnd text))).pass (spaces count)) ∧
        body ++ ((chomp? (chompMark text)).getD .clip).kept first more = text := by
  have hwidth : count < column + indentWidth := by
    rw [indentWidth]
    omega
  obtain ⟨breaks, segments, htext, hbreaks⟩ := Segment.exists_eq (isBreak_of_getLast?_lineEnd text)
  have hbreaksPrintable : ∀ c ∈ breaks, isPrintable c = true :=
    fun c hmem => hprintable c (by rw [htext]; exact List.mem_append_left _ hmem)
  have hsegmentsPrintable : ∀ c ∈ segments.flatMap Segment.text, isPrintable c = true :=
    fun c hmem => hprintable c (by rw [htext]; exact List.mem_append_right _ hmem)
  have hlines : blockLines (column + indentWidth) true (text ++ lineEnd text) =
      breaks ++ Segment.written (column + indentWidth) segments := by
    rw [htext, blockLines_breaks hbreaks, blockLines_segments]
  rw [hlines, List.append_assoc] at hrest
  obtain ⟨widest, hreadBreaks, hknown⟩ :=
    exists_readFirstBreaks hwidth hbehind hne hprintable hbreaks htext hcolumn hrest
  rw [State.pass_append] at hreadBreaks
  have hnext := State.rest_pass hbreaksPrintable hrest
  obtain ⟨body, hreadLines, hbody⟩ := @Segment.exists_readLines_eq _ (state.pass breaks) count
    behind hwidth hbehind segments hsegmentsPrintable [] breaks false _
    (State.column_pass_breaks hcolumn hbreaks) hnext (Segment.length_lt_length_rest hnext)
  refine ⟨breaks, widest, _, body, _, _, hreadBreaks, hknown, ?_,
    append_kept_eq hne hbreaks htext hbody⟩
  rw [hreadLines, hlines, State.pass_append, State.pass_append]

/-- **A text written as a block is read as that text**, up to what stands further left. -/
theorem exists_readBlock_eq {context : Context} {column : ℕ} (hindent : context.indent = column)
    (hne : text ≠ []) (hprintable : ∀ c ∈ text, isPrintable c = true)
    (houtside : Outside (column + 1) tail)
    (hrest : state.rest = writeBlock (column + indentWidth) text ++ lineEnd text ++ tail) :
    ∃ after, readBlock context false state = some (text, after) ∧
      after.toToken false =
        ((state.pass (writeBlock (column + indentWidth) text ++ lineEnd text)).withFresh
          true).toToken false := by
  have hended : ∀ c ∈ text ++ lineEnd text, isPrintable c = true :=
    List.forall_mem_append.mpr ⟨hprintable, isPrintable_of_mem_lineEnd⟩
  obtain ⟨count, behind, rfl, hcount, hbehind⟩ := houtside.exists_spaces
  set marks := incrementMark text ++ chompMark text with hmarks
  set lines := blockLines (column + indentWidth) true (text ++ lineEnd text) with hlines
  have hwritten : writeBlock (column + indentWidth) text ++ lineEnd text =
      '|' :: (marks ++ '\n' :: lines) := by
    rw [hlines, ← blockLines_append_lineEnd, writeBlock]
    simp [hmarks]
  rw [hwritten] at hrest ⊢
  have hstart : state.skip.rest = marks ++ '\n' :: (lines ++ (spaces count ++ behind)) := by
    rw [State.rest_skip hrest]
    simp
  have hmarksPrintable := isPrintable_of_mem_marks hne
  rw [← hmarks] at hmarksPrintable
  have hreadMarks := readMarks_eq (incrementMark_eq text) (chompMark_eq hne) hstart
  rw [← hmarks] at hreadMarks
  have hmarkLine := State.rest_pass hmarksPrintable hstart
  have hlinesRest : (state.skip.pass marks).skipBreak.rest = lines ++ (spaces count ++ behind) := by
    rw [State.skipBreak_eq (by decide) hmarkLine]
  obtain ⟨breaks, widest, next, body, first, more, hreadBreaks, hknown, hreadLines, hkept⟩ :=
    exists_readLines_of_text hcount hbehind hne hended (State.column_skipBreak _) hlinesRest
  have hpassed : (state.skip.pass marks).skipBreak.pass lines =
      state.pass ('|' :: (marks ++ '\n' :: lines)) := by
    rw [State.pass_cons state, State.pass_append _ marks, State.pass_cons]
    rfl
  rw [← hlines, hpassed] at hreadLines
  have hincrement : (if incrementMark text = [] then none else some 2).map
      (fun increment => (max context.indent 0).toNat + increment) = knownIndent column text := by
    rw [knownIndent, hindent]
    split
    · rfl
    · simp [indentWidth]
  have hleast : (context.indent + 1).toNat = column + 1 := by
    rw [hindent]
    omega
  refine ⟨((state.pass ('|' :: (marks ++ '\n' :: lines))).pass (spaces count)).withFresh true,
    ?_, ?_⟩
  · rw [readBlock, hreadMarks]
    simp only [Option.bind_eq_bind, Option.bind_some, skipMarkLine_eq hmarkLine, hincrement,
      hreadBreaks, hleast, hknown, hreadLines]
    generalize (chomp? (chompMark text)).getD .clip = chomp at hkept ⊢
    rw [← hkept]
    cases chomp <;> rfl
  · rw [← hwritten] at hrest ⊢
    exact State.toToken_withFresh_spaces
      (State.rest_pass (isPrintable_of_mem_writeBlock hne hprintable) hrest)

end EditBatch.Yaml
