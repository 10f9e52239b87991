import EditBatch.Proofs.Yaml.WrittenText
set_option autoImplicit false

/-!
# Mappings read as they are written

An entry of a mapping is a word, a colon and a value. Read in the column of its mapping, it leads to
the next entry, or to what stands further left and ends the mapping.

## Main definitions

* `EditBatch.Yaml.Entry` — an entry with the node that its value is read as.
* `EditBatch.Yaml.Entry.lines` — entries as they are written, one below the other.

## Main results

* `EditBatch.Yaml.Entry.exists_readEntry_eq` — one entry is read as it is written.
* `EditBatch.Yaml.Entry.readBlockEntries_eq` — so are all entries of a mapping.
* `EditBatch.Yaml.Entry.readBlockNode_eq` — a node that starts with a key is the mapping of its
  entries.
-/

namespace EditBatch.Yaml

/-- An entry of a mapping in the given column: its name, its value as it is written, and the node
that the value is read as. -/
structure Entry (column : ℕ) where
  name : String
  value : List Char
  node : Node
  isWordChar_name : ∀ c ∈ name.toList, isWordChar c = true
  name_ne_nil : name.toList ≠ []
  length_name_le : name.toList.length ≤ keyLimit
  readsAs : ReadsAs column value node

lemma startsToken_of_isWordChar {c : Char} (h : isWordChar c = true) :
    StartsToken c ∧ c ∉ "|>&!-.%?".toList := by
  have hne : ∀ d, isWordChar d = false → c ≠ d := by
    rintro d hd rfl
    rw [h] at hd
    cases hd
  refine ⟨⟨?_, ?_, hne '#' rfl⟩, ?_⟩
  · simp [isBlank, hne ' ' rfl, hne '\t' rfl]
  · simp [isBreak, hne '\r' rfl, hne '\n' rfl, hne '\u0085' rfl, hne '\u2028' rfl, hne '\u2029' rfl]
  · intro hmem
    have hmarks : ∀ d ∈ "|>&!-.%?".toList, isWordChar d = false :=
      List.all_iff_forall_prop.mp (by decide)
    exact hne c (hmarks c hmem) rfl

namespace Entry

variable {column : ℕ}

/-- An entry as it is written. -/
def written (entry : Entry column) : List Char := entry.name.toList ++ ':' :: ' ' :: entry.value

/-- The nodes of the key and the value of an entry. -/
def nodes (entry : Entry column) : Node × Node := (.scalar none .plain entry.name, entry.node)

/-- Entries as they are written, the first one behind its spaces. -/
def lines : List (Entry column) → List Char
  | [] => []
  | entry :: entries => entry.written ++ entries.flatMap fun entry => spaces column ++ entry.written

lemma lines_cons_cons (first second : Entry column) (entries : List (Entry column)) :
    lines (first :: second :: entries) =
      first.written ++ (spaces column ++ lines (second :: entries)) := by
  simp [lines]

lemma exists_written_eq (entry : Entry column) :
    ∃ c rest, entry.written = c :: rest ∧ isWordChar c = true := by
  obtain ⟨c, rest, heq⟩ := List.exists_cons_of_ne_nil entry.name_ne_nil
  exact ⟨c, _, by rw [written, heq, List.cons_append], entry.isWordChar_name c (by simp [heq])⟩

lemma exists_lines_eq (entry : Entry column) (entries : List (Entry column)) :
    ∃ c rest, lines (entry :: entries) = c :: rest ∧ isWordChar c = true := by
  obtain ⟨c, rest, heq, hc⟩ := entry.exists_written_eq
  exact ⟨c, _, by rw [lines, heq, List.cons_append], hc⟩

lemma isPrintable_of_mem_written (entry : Entry column) :
    ∀ c ∈ entry.written, isPrintable c = true := by
  refine List.forall_mem_append.mpr ⟨?_, ?_⟩
  · exact fun c hmem => isPrintable_of_isWordChar (entry.isWordChar_name c hmem)
  · simp only [List.forall_mem_cons]
    exact ⟨by decide, by decide, entry.readsAs.printable⟩

/-- Behind an entry starts a line. -/
lemma column_pass_written (entry : Entry column) (state : State) :
    (state.pass entry.written).column = 0 := by
  obtain ⟨front, c, heq, hc⟩ := entry.readsAs.exists_end
  have hwritten : entry.written = (entry.name.toList ++ ':' :: ' ' :: front) ++ [c] := by
    simp [written, heq]
  rw [hwritten, State.pass_append, State.pass_cons, State.passChar_of_isBreak hc]
  exact State.column_skipBreak _

lemma isPrintable_of_mem_lines (entries : List (Entry column)) :
    ∀ c ∈ lines entries, isPrintable c = true := by
  rcases entries with _ | ⟨entry, entries⟩
  · exact fun c hc => nomatch hc
  · simp only [lines, List.forall_mem_append, List.mem_flatMap]
    refine ⟨entry.isPrintable_of_mem_written, ?_⟩
    rintro c ⟨other, -, hc⟩
    rcases List.mem_append.mp hc with hc | hc
    · exact isPrintable_of_mem_spaces c hc
    · exact other.isPrintable_of_mem_written c hc

/-- There is more text than there are entries. -/
lemma length_le_length_lines (entry : Entry column) (entries : List (Entry column)) :
    entries.length ≤ (lines (entry :: entries)).length := by
  induction entries generalizing entry with
  | nil => exact Nat.zero_le _
  | cons second entries ih =>
    obtain ⟨c, rest, hstart, -⟩ := entry.exists_written_eq
    have := ih second
    rw [lines_cons_cons, hstart]
    simp only [List.length_append, List.length_cons]
    omega

lemma column_pass_lines (entry : Entry column) (entries : List (Entry column)) (state : State) :
    (state.pass (lines (entry :: entries))).column = 0 := by
  induction entries generalizing entry state with
  | nil =>
    rw [lines, List.flatMap_nil, List.append_nil]
    exact entry.column_pass_written state
  | cons second entries ih =>
    rw [lines_cons_cons, State.pass_append, State.pass_append]
    exact ih second _

/-- The key of an entry is read up to its colon. -/
lemma readKey_eq (entry : Entry column) {fuel : ℕ} {context : Context} {state : State}
    {tail : List Char} (hflow : context.flow = false) (hrest : state.rest = entry.written ++ tail) :
    readKey (fuel + 1) context state =
      some (.scalar none .plain entry.name, (state.pass entry.name.toList).withFresh false) := by
  have hcolon : state.rest = entry.name.toList ++ ':' :: (' ' :: (entry.value ++ tail)) := by
    simp [hrest, written]
  have h := @Yaml.readKey_eq _ _ context fuel entry.name.toList entry.isWordChar_name
    entry.name_ne_nil entry.length_name_le hflow rfl hcolon
  rwa [String.ofList_toList] at h

/-- **An entry is read as it is written**, up to what follows its value. -/
lemma exists_readEntry_eq (entry : Entry column) {fuel : ℕ} {context : Context} {state : State}
    {tail : List Char} (hindent : context.indent = column) (hflow : context.flow = false)
    (hcolumn : state.column = column) (houtside : Outside (column + 1) tail)
    (hrest : state.rest = entry.written ++ tail) :
    ∃ after, readEntry (fuel + 5) context state =
        some (.scalar none .plain entry.name, entry.node, after) ∧
      after.toToken false = ((state.pass entry.written).withFresh true).toToken false := by
  obtain ⟨c, rest, hvalue, starts⟩ := entry.readsAs.exists_start
  have hname : ∀ d ∈ entry.name.toList ++ [':', ' '], isPrintable d = true ∧ isBreak d = false := by
    refine List.forall_mem_append.mpr ⟨fun d hd => ?_, List.all_iff_forall_prop.mp (by decide)⟩
    have hd := entry.isWordChar_name d hd
    exact ⟨isPrintable_of_isWordChar hd, (startsToken_of_isWordChar hd).1.2.1⟩
  have hwritten : entry.written = (entry.name.toList ++ [':', ' ']) ++ entry.value := by
    simp [written]
  have hkey := @readKey_eq column entry (fuel + 3) context state tail hflow hrest
  rw [hwritten, List.append_assoc] at hrest
  obtain ⟨start, hstart⟩ :
      ∃ start, start = (state.pass (entry.name.toList ++ [':', ' '])).withFresh false := ⟨_, rfl⟩
  have hstartRest : start.rest = entry.value ++ tail := by
    rw [hstart]
    exact State.rest_pass (fun d hd => (hname d hd).1) hrest
  have hstartColumn : column < start.column := by
    have h := @State.column_pass state _ fun d hd => (hname d hd).2
    rw [hstart, State.column_withFresh, h, hcolumn, List.length_append, List.length_cons]
    omega
  -- the value is met behind the colon and a space
  have hcolon : ((((state.pass entry.name.toList).withFresh false).skip).withFresh false).toToken
      false = start := by
    have hspace : ((((state.pass entry.name.toList).withFresh false).skip).withFresh false).rest =
        spaces 1 ++ c :: (rest ++ tail) := by
      rw [hvalue, List.append_assoc] at hrest
      exact State.rest_skip (State.rest_pass
        (fun d hd => (hname d (List.mem_append_left _ hd)).1) hrest)
    rw [State.toToken_outside hspace starts, hstart, State.pass_append]
    rfl
  obtain ⟨after, hread, htoken⟩ := @(entry.readsAs).read fuel context start tail hindent hflow
    (by rw [hstart]; rfl) hstartColumn houtside hstartRest
  refine ⟨after, ?_, ?_⟩
  · rw [readEntry, hkey]
    simp only [Option.bind_eq_bind, Option.bind_some, hcolon, hread]
    rfl
  · rw [htoken, hstart, State.pass_withFresh, State.withFresh_withFresh, hwritten,
      State.pass_append _ (entry.name.toList ++ [':', ' '])]

end Entry

/-! ## What follows an entry -/

variable {column : ℕ} {state : State}

/-- A document goes on where a line starts with a word. -/
lemma goesOn_of_isWordChar {c : Char} {rest : List Char} (hc : isWordChar c = true)
    (hrest : state.rest = c :: rest) : state.atEnd = false ∧ state.atDirective = false := by
  have hmarks := (startsToken_of_isWordChar hc).2
  have htriple : ∀ mark, c ≠ mark → State.atTriple mark (c :: rest) = false := by
    intro mark hmark
    unfold State.atTriple
    split
    · rename_i heq
      obtain ⟨rfl, -⟩ := List.cons.inj heq
      simp [hmark]
    · rfl
  have hdash : c ≠ '-' := by
    rintro rfl
    exact hmarks (by decide)
  have hdot : c ≠ '.' := by
    rintro rfl
    exact hmarks (by decide)
  have hpercent : c ≠ '%' := by
    rintro rfl
    exact hmarks (by decide)
  constructor
  · simp [State.atEnd, State.atMarker, hrest, htriple '-' hdash, htriple '.' hdot]
  · simp [State.atDirective, hrest, hpercent]

/-- A mapping ends where nothing follows but what stands further left. -/
lemma toToken_ends (hcolumn : state.column = 0) (houtside : Outside column state.rest) :
    (state.toToken false).atEnd = true ∨ (state.toToken false).column < column := by
  rcases houtside with hnil | ⟨count, c, rest, hrest, hcount, starts⟩
  · left
    rw [State.toToken_eq_self (by rw [hnil]; exact fun c hc => nomatch hc), State.atEnd, hnil]
    rfl
  · right
    rw [State.toToken_outside hrest starts, State.column_pass isBreak_of_mem_spaces, hcolumn,
      length_spaces, Nat.zero_add]
    exact hcount

/-! ## Mappings -/

section Steps

variable {fuel : ℕ} {context : Context} {after last : State} {key value : Node}
  {entries : List (Node × Node)}

/-- A mapping ends behind an entry. -/
lemma readBlockEntries_last (hmark : state.atMark '?' = false)
    (hread : readEntry fuel context state = some (key, value, after))
    (hend : (after.toToken false).atEnd = true ∨
      ((after.toToken false).column : Int) < context.indent) :
    readBlockEntries (fuel + 1) context state = some ([(key, value)], after.toToken false) := by
  rw [readBlockEntries]
  simp [hmark, hread, hend]

/-- A mapping goes on behind an entry. -/
lemma readBlockEntries_more (hmark : state.atMark '?' = false)
    (hread : readEntry fuel context state = some (key, value, after))
    (hend : (after.toToken false).atEnd = false ∧ (after.toToken false).atDirective = false)
    (hcolumn : ((after.toToken false).column : Int) = context.indent)
    (hfresh : (after.toToken false).fresh = true)
    (hmore : readBlockEntries fuel context (after.toToken false) = some (entries, last)) :
    readBlockEntries (fuel + 1) context state = some ((key, value) :: entries, last) := by
  rw [readBlockEntries]
  simp [hmark, hread, hend, hcolumn, hfresh, hmore]

/-- **A node that starts with a key is a mapping.** -/
lemma readBlockNode_of_key {key : Node × State} {c : Char} {rest : List Char} {dashes : Bool}
    (hindent : context.indent < state.column) (hfresh : state.fresh = true)
    (hrest : state.rest = c :: rest) (hc : isWordChar c = true)
    (hkey : readKey (fuel + 1) context state = some key)
    (hentries :
      readBlockEntries fuel (context.inBlock state.column) state = some (entries, after)) :
    readBlockNode (fuel + 2) context dashes {} state = some (.mapping none entries, after) := by
  obtain ⟨hend, hdirective⟩ := goesOn_of_isWordChar hc hrest
  have hmarks := (startsToken_of_isWordChar hc).2
  have hnot : ∀ d ∈ "|>&!-.%?".toList, c ≠ d := by
    rintro d hd rfl
    exact hmarks hd
  have hblock : atAny "|>" state = false := by
    have hsubset : ∀ d ∈ "|>".toList, d ∈ "|>&!-.%?".toList :=
      List.all_iff_forall_prop.mp (by decide)
    rw [atAny_eq hrest, decide_eq_false_iff_not]
    exact fun hmem => hmarks (hsubset c hmem)
  have hmark : ∀ d ∈ "|>&!-.%?".toList, state.atMark d = false := by
    intro d hd
    rw [State.atMark_eq hrest, beq_eq_false_iff_ne.mpr (hnot d hd), Bool.false_and]
  have hleft : ¬ (state.column : Int) < context.indent := by omega
  have hequal : ¬ (state.column : Int) = context.indent := by omega
  have hmapping :
      readMapping (fuel + 1) context {} state = some (.mapping none entries, after) := by
    rw [readMapping, hentries]
    rfl
  rw [readBlockNode]
  simp [hend, hdirective, hblock, hmark '-' (by decide), hmark '?' (by decide), hleft, hequal,
    hfresh, hkey, hmapping]

end Steps

namespace Entry

variable {context : Context} {tail : List Char} {fuel : ℕ}

lemma not_atMark (entry : Entry column) (hrest : state.rest = entry.written ++ tail) (mark : Char)
    (hmark : isWordChar mark = false) : state.atMark mark = false := by
  obtain ⟨c, rest, hstart, hc⟩ := entry.exists_written_eq
  rw [hstart] at hrest
  rw [State.atMark_eq hrest, Bool.and_eq_false_iff, beq_eq_false_iff_ne]
  left
  rintro rfl
  rw [hc] at hmark
  cases hmark

/-- Behind an entry and the spaces in front of it, the next entry stands in the same column. -/
lemma exists_next (entry second : Entry column) (entries : List (Entry column))
    (hrest : state.rest =
      entry.written ++ (spaces column ++ (lines (second :: entries) ++ tail))) :
    ∃ next, next = ((state.pass entry.written).withFresh true).pass (spaces column) ∧
      ((state.pass entry.written).withFresh true).toToken false = next ∧ next.column = column ∧
      next.fresh = true ∧ next.rest = lines (second :: entries) ++ tail := by
  have hbehind : ((state.pass entry.written).withFresh true).rest =
      spaces column ++ (lines (second :: entries) ++ tail) :=
    State.rest_pass entry.isPrintable_of_mem_written hrest
  obtain ⟨c, rest, hstart, hc⟩ := second.exists_lines_eq entries
  refine ⟨_, rfl, ?_, ?_, ?_, State.rest_pass isPrintable_of_mem_spaces hbehind⟩
  · rw [hstart] at hbehind
    exact State.toToken_outside hbehind (startsToken_of_isWordChar hc).1
  · rw [State.column_pass isBreak_of_mem_spaces, State.column_withFresh, entry.column_pass_written,
      length_spaces, Nat.zero_add]
  · rw [State.fresh_pass, State.fresh_withFresh]

/-- **All entries of a mapping are read as they are written**, up to what stands further left. -/
theorem readBlockEntries_eq (entry : Entry column) (entries : List (Entry column))
    (hindent : context.indent = column) (hflow : context.flow = false)
    (hcolumn : state.column = column) (houtside : Outside column tail)
    (hrest : state.rest = lines (entry :: entries) ++ tail) :
    readBlockEntries (fuel + entries.length + 6) context state =
      some ((entry :: entries).map nodes,
        ((state.pass (lines (entry :: entries))).withFresh true).toToken false) := by
  induction entries generalizing entry state with
  | nil =>
    have hlines : lines [entry] = entry.written := by simp [lines]
    rw [hlines] at hrest ⊢
    have hmark := entry.not_atMark hrest '?' rfl
    obtain ⟨after, hread, htoken⟩ := @entry.exists_readEntry_eq column fuel context state tail
      hindent hflow hcolumn (houtside.mono (Nat.le_succ _)) hrest
    have hnextRest : ((state.pass entry.written).withFresh true).rest = tail :=
      State.rest_pass entry.isPrintable_of_mem_written hrest
    rw [← hnextRest] at houtside
    have hends := @toToken_ends column ((state.pass entry.written).withFresh true)
      (entry.column_pass_written state) houtside
    rw [← htoken] at hends ⊢
    exact readBlockEntries_last hmark hread (by rw [hindent]; exact hends.imp_right (by omega))
  | cons second entries ih =>
    rw [lines_cons_cons, List.append_assoc, List.append_assoc] at hrest
    have hmark := entry.not_atMark hrest '?' rfl
    obtain ⟨c, rest, hstart, hc⟩ := second.exists_lines_eq entries
    have houtside' : Outside (column + 1) (spaces column ++ (lines (second :: entries) ++ tail)) :=
      .inr ⟨column, c, rest ++ tail, by rw [hstart, List.cons_append], Nat.lt_succ_self _,
        (startsToken_of_isWordChar hc).1⟩
    obtain ⟨after, hread, htoken⟩ := @entry.exists_readEntry_eq column (fuel + entries.length + 1)
      context state _ hindent hflow hcolumn houtside' hrest
    obtain ⟨next, hnext, htoNext, hnextColumn, hnextFresh, hnextRest⟩ :=
      entry.exists_next second entries hrest
    have hmore := ih second hnextColumn hnextRest
    rw [hstart] at hnextRest
    rw [htoNext] at htoken
    rw [← htoken] at hmore hnextColumn hnextFresh hnextRest
    refine (readBlockEntries_more hmark hread (goesOn_of_isWordChar hc hnextRest)
      (by rw [hnextColumn, hindent]) hnextFresh hmore).trans ?_
    rw [htoken, hnext, ← State.pass_append, State.pass_withFresh, State.withFresh_withFresh,
      ← State.pass_append, lines_cons_cons]
    rfl

/-- **A mapping is read as it is written**, up to what stands further left. -/
theorem readBlockNode_eq (entry : Entry column) (entries : List (Entry column)) {dashes : Bool}
    (hindent : context.indent < column) (hflow : context.flow = false)
    (hcolumn : state.column = column) (hfresh : state.fresh = true) (houtside : Outside column tail)
    (hrest : state.rest = lines (entry :: entries) ++ tail) :
    readBlockNode (fuel + entries.length + 8) context dashes {} state =
      some (.mapping none ((entry :: entries).map nodes),
        ((state.pass (lines (entry :: entries))).withFresh true).toToken false) := by
  obtain ⟨c, rest, hstart, hc⟩ := entry.exists_written_eq
  have hfirst : state.rest = entry.written ++
      ((entries.flatMap fun entry => spaces column ++ entry.written) ++ tail) := by
    rw [hrest, lines, List.append_assoc]
  have hkey := @readKey_eq column entry (fuel + entries.length + 6) context state _ hflow hfirst
  rw [hstart] at hfirst
  refine readBlockNode_of_key (by rwa [hcolumn]) hfresh hfirst hc hkey ?_
  exact readBlockEntries_eq entry entries (by rw [hcolumn]; rfl) hflow hcolumn houtside hrest

end Entry

end EditBatch.Yaml
