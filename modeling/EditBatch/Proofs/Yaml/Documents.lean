import EditBatch.Proofs.Yaml.Entries
set_option autoImplicit false

/-!
# Documents read as they are written

A document is a mapping in the first column. Its values are scalars, or there is a single key with a
sequence of mappings below it, in the same column.

## Main definitions

* `EditBatch.Yaml.Item` — a mapping that is an item of a sequence.

## Main results

* `EditBatch.Yaml.Item.exists_readItems_eq` — a sequence is read as it is written.
* `EditBatch.Yaml.exists_readDocument_entries`, `EditBatch.Yaml.exists_readDocument_items` — so are
  documents of both shapes.
-/

namespace EditBatch.Yaml

/-- A mapping that is an item of a sequence in the first column. -/
structure Item where
  first : Entry indentWidth
  more : List (Entry indentWidth)

namespace Item

/-- An item as it is written. -/
def written (item : Item) : List Char := '-' :: ' ' :: Entry.lines (item.first :: item.more)

/-- The node of an item. -/
def node (item : Item) : Node := .mapping none ((item.first :: item.more).map Entry.nodes)

variable {fuel bound : ℕ} {context : Context} {state : State}

lemma isPrintable_of_mem_written (item : Item) : ∀ c ∈ item.written, isPrintable c = true := by
  simp only [written, List.forall_mem_cons]
  exact ⟨by decide, by decide, Entry.isPrintable_of_mem_lines _⟩

/-- There is more text than there are items, or entries in one of them. -/
lemma length_le_length_written (items : List Item) :
    items.length ≤ (items.flatMap written).length ∧
      ∀ item ∈ items, item.more.length ≤ (items.flatMap written).length := by
  induction items with
  | nil => exact ⟨Nat.le_refl 0, fun item hmem => nomatch hmem⟩
  | cons item items ih =>
    have hlines := Entry.length_le_length_lines item.first item.more
    have hitem : item.more.length + 2 ≤ item.written.length := by
      rw [written]
      simpa using hlines
    rw [List.flatMap_cons, List.length_append, List.length_cons, List.forall_mem_cons]
    refine ⟨by omega, by omega, fun other hmem => ?_⟩
    have := ih.2 other hmem
    omega

/-- Behind an item starts a line. -/
lemma column_pass_written (item : Item) (state : State) : (state.pass item.written).column = 0 :=
  item.first.column_pass_lines item.more _

/-- What follows an item: the dash of the next one, or nothing. -/
lemma outside_flatMap_written (items : List Item) :
    Outside indentWidth (items.flatMap written) := by
  rcases items with _ | ⟨item, items⟩
  · exact .inl rfl
  · refine .inr ⟨0, '-', ' ' :: (Entry.lines (item.first :: item.more) ++ items.flatMap written),
      ?_, by decide, by decide⟩
    simp [written, spaces]

/-- A sequence goes on at a dash. -/
lemma goesOn_of_dash {rest : List Char} (hrest : state.rest = '-' :: ' ' :: rest) :
    state.atEnd = false ∧ state.atMark '-' = true := by
  have htriple : ∀ mark, mark = '-' ∨ mark = '.' →
      State.atTriple mark ('-' :: ' ' :: rest) = false := by
    rintro mark (rfl | rfl) <;> rcases rest with _ | ⟨c, rest⟩ <;> rfl
  constructor
  · simp [State.atEnd, State.atMarker, hrest, htriple]
  · rw [State.atMark_eq hrest]
    rfl

/-- Behind an item a token starts, or nothing is left. -/
lemma toToken_eq_self {items : List Item} (hrest : state.rest = items.flatMap written) :
    state.toToken false = state := by
  refine State.toToken_eq_self ?_
  rw [hrest]
  rcases items with _ | ⟨item, items⟩
  · exact fun c hc => nomatch hc
  · rintro c ⟨⟩
    decide

/-- **An item is read as it is written**, up to the next one. -/
lemma readItem_eq (item : Item) (items : List Item) (hfuel : item.more.length + 8 ≤ fuel)
    (hindent : context.indent = 0) (hflow : context.flow = false) (hcolumn : state.column = 0)
    (hrest : state.rest = item.written ++ items.flatMap written) :
    readBlockNode fuel context false {}
        ((state.skip.withFresh true).toToken false) =
      some (item.node, (state.pass item.written).withFresh true) := by
  obtain ⟨fuel, rfl⟩ := Nat.exists_eq_add_of_le' hfuel
  obtain ⟨c, rest, hlines, hc⟩ := item.first.exists_lines_eq item.more
  have hdash :
      (state.skip.withFresh true).rest = spaces 1 ++ c :: (rest ++ items.flatMap written) := by
    rw [written, hlines] at hrest
    exact State.rest_skip hrest
  have hstart : (state.skip.withFresh true).toToken false =
      (state.pass ['-', ' ']).withFresh true :=
    State.toToken_outside hdash (startsToken_of_isWordChar hc).1
  have hstartRest : ((state.pass ['-', ' ']).withFresh true).rest =
      Entry.lines (item.first :: item.more) ++ items.flatMap written :=
    State.rest_pass (List.all_eq_true.mp (by decide)) hrest
  have hstartColumn : ((state.pass ['-', ' ']).withFresh true).column = indentWidth := by
    rw [State.column_withFresh, State.column_pass (List.all_iff_forall_prop.mp (by decide)),
      hcolumn]
    rfl
  have hread := @Entry.readBlockNode_eq indentWidth _ context _ fuel item.first item.more false
    (by rw [hindent]; decide) hflow hstartColumn (State.fresh_withFresh _ true)
    (outside_flatMap_written items) hstartRest
  have hpassed : ((((state.pass ['-', ' ']).withFresh true).pass
      (Entry.lines (item.first :: item.more))).withFresh true) =
      (state.pass item.written).withFresh true := by
    rw [State.pass_withFresh, State.withFresh_withFresh, ← State.pass_append]
    rfl
  have hend : ((state.pass item.written).withFresh true).rest = items.flatMap written :=
    State.rest_pass item.isPrintable_of_mem_written hrest
  rw [hstart, ← Nat.add_assoc, hread, hpassed, toToken_eq_self hend]
  rfl

section Steps

variable {after last : State} {first : Node} {nodes : List Node}

/-- A sequence ends behind an item. -/
lemma readItems_last
    (hread : readBlockNode fuel context false {} ((state.skip.withFresh true).toToken false) =
      some (first, after)) (hend : (after.toToken false).atEnd = true) :
    readItems (fuel + 1) context true state = some ([first], after.toToken false) := by
  rw [readItems]
  simp [hread, hend]

/-- A sequence goes on behind an item. -/
lemma readItems_more
    (hread : readBlockNode fuel context false {} ((state.skip.withFresh true).toToken false) =
      some (first, after))
    (hend : (after.toToken false).atEnd = false ∧ (after.toToken false).atMark '-' = true)
    (hcolumn : ((after.toToken false).column : Int) = context.indent)
    (hfresh : (after.toToken false).fresh = true)
    (hmore : readItems fuel context true (after.toToken false) = some (nodes, last)) :
    readItems (fuel + 1) context true state = some (first :: nodes, last) := by
  rw [readItems]
  simp [hread, hend, hcolumn, hfresh, hmore]

end Steps

/-- **A sequence is read as it is written**, up to the end of the text. -/
theorem exists_readItems_eq (item : Item) (items : List Item)
    (hbound : ∀ item' ∈ item :: items, item'.more.length ≤ bound)
    (hfuel : items.length + bound + 9 ≤ fuel) (hindent : context.indent = 0)
    (hflow : context.flow = false) (hcolumn : state.column = 0)
    (hrest : state.rest = (item :: items).flatMap written) :
    ∃ last, readItems fuel context true state = some ((item :: items).map node, last) ∧
      last.rest = [] := by
  induction items generalizing item state fuel with
  | nil =>
    obtain ⟨fuel, rfl⟩ := Nat.exists_eq_add_of_le' (Nat.le_trans (Nat.le_add_left 1 _) hfuel)
    have hitem := hbound item List.mem_cons_self
    have hread := @readItem_eq fuel context state item [] (by omega) hindent hflow hcolumn hrest
    have hend : ((state.pass item.written).withFresh true).rest = [] :=
      State.rest_pass item.isPrintable_of_mem_written hrest
    have htoken := @toToken_eq_self ((state.pass item.written).withFresh true) [] hend
    have hlast := readItems_last hread (by rw [htoken, State.atEnd, hend]; rfl)
    rw [htoken] at hlast
    exact ⟨_, hlast, hend⟩
  | cons second items ih =>
    obtain ⟨fuel, rfl⟩ := Nat.exists_eq_add_of_le' (Nat.le_trans (Nat.le_add_left 1 _) hfuel)
    have hitem := hbound item List.mem_cons_self
    rw [List.length_cons] at hfuel
    have hread := @readItem_eq fuel context state item (second :: items) (by omega) hindent hflow
      hcolumn hrest
    obtain ⟨next, hnext⟩ : ∃ next, next = (state.pass item.written).withFresh true := ⟨_, rfl⟩
    have hnextRest : next.rest = (second :: items).flatMap written := by
      rw [hnext]
      exact State.rest_pass item.isPrintable_of_mem_written hrest
    have hnextColumn : next.column = 0 := by
      rw [hnext]
      exact item.column_pass_written state
    have htoken := toToken_eq_self hnextRest
    rw [← hnext] at hread
    obtain ⟨last, hmore, hend⟩ := @ih fuel next second
      (fun item' hmem => hbound item' (List.mem_cons_of_mem _ hmem)) (by omega) hnextColumn
      hnextRest
    refine ⟨last, readItems_more hread ?_ ?_ ?_ ?_, hend⟩ <;> rw [htoken]
    · exact goesOn_of_dash hnextRest
    · rw [hnextColumn, hindent]
      rfl
    · rw [hnext, State.fresh_withFresh]
    · exact hmore

end Item

/-! ## Documents -/

variable {fuel : ℕ} {context : Context} {state after : State}

/-- What needs no escape may stand in a text. -/
lemma isAllowed_of_isPrintable {c : Char} (h : isPrintable c = true) : isAllowed c = true := by
  simp only [isPrintable, isAllowed, Bool.or_eq_true, Bool.and_eq_true, beq_iff_eq, bne_iff_ne,
    decide_eq_true_eq] at h ⊢
  rcases h with ((rfl | hplain) | ⟨⟨hlow, hhigh⟩, -⟩) | hlarge
  · decide
  · exact .inl (.inl (.inl (.inr hplain)))
  · have hle : c ≤ '\uffff' := by
      change c.toNat ≤ 0xFFFD at hhigh
      change c.toNat ≤ 0xFFFF
      omega
    refine .inl (.inr ⟨⟨⟨hlow, hle⟩, ?_⟩, ?_⟩)
    all_goals
      rintro rfl
      exact absurd hhigh (by decide)
  · exact .inr hlarge

/-- **A document that starts with a word is read as its node**, if nothing is left behind it. -/
lemma readDocument_eq {text : String} {c : Char} {rest : List Char} {root : Node}
    (hprintable : ∀ c ∈ text.toList, isPrintable c = true) (htext : text.toList = c :: rest)
    (hc : isWordChar c = true)
    (hread : readBlockNode (fuelFor text.toList) ⟨-1, false, standardHandles⟩ false {}
      { rest := text.toList } = some (root, after)) (hend : after.rest = []) :
    readDocument text = some ⟨some root, after.anchored⟩ := by
  have hallowed : text.toList.all isAllowed = true :=
    List.all_eq_true.mpr fun c hmem => isAllowed_of_isPrintable (hprintable c hmem)
  have hstart : State.ofText text.toList = { rest := text.toList } := by
    rw [htext]
    unfold State.ofText
    split
    · rename_i heq
      obtain ⟨rfl, -⟩ := List.cons.inj heq
      exact absurd hc (by decide)
    · rfl
  obtain ⟨hatEnd, hatDirective⟩ := @goesOn_of_isWordChar { rest := text.toList } c rest hc htext
  have htoken : State.toToken false { rest := text.toList } = { rest := text.toList } :=
    State.toToken_eq_self (by rw [htext]; rintro d ⟨⟩; exact (startsToken_of_isWordChar hc).1)
  have hdirectives : readDirectives {} (fuelFor text.toList) { rest := text.toList } =
      some ({}, { rest := text.toList }) := by
    rw [fuelFor, readDirectives]
    simp only [htoken, hatDirective]
    rfl
  have hempty : text.toList.isEmpty = false := by
    rw [htext]
    rfl
  have hends : endsText (fuelFor text.toList) after = true := by
    have hafter : after.toToken false = after :=
      State.toToken_eq_self (by rw [hend]; exact fun c hc => nomatch hc)
    rw [fuelFor, endsText]
    simp only [hafter, hend]
    rfl
  have hmarker : State.atMarker { rest := text.toList } = false :=
    (Bool.or_eq_false_iff.mp hatEnd).2
  have hdash : State.atTriple '-' text.toList = false := by
    simp only [State.atMarker, beq_self_eq_true, Bool.true_and, Bool.or_eq_false_iff] at hmarker
    exact hmarker.1
  rw [readDocument]
  simp only [hallowed, hstart, hdirectives, hempty, hmarker, hdash, Option.bind_eq_bind,
    Option.bind_some, Bool.not_true, Bool.and_false, Bool.or_false, Bool.false_eq_true, if_false]
  have hhandles : ({} : Directives).handles ++ standardHandles = standardHandles := rfl
  rw [hhandles, hread]
  simp only [Option.bind_some, hends]
  rfl

/-- A node that starts with a dash in the column of its block is a sequence. -/
lemma readBlockNode_of_dash {rest : List Char} {nodes : List Node}
    (hindent : context.indent = state.column) (hfresh : state.fresh = true)
    (hrest : state.rest = '-' :: ' ' :: rest)
    (hitems : readItems fuel context true state = some (nodes, after)) :
    readBlockNode (fuel + 1) context true {} state = some (.sequence none nodes, after) := by
  obtain ⟨hend, hmark⟩ := Item.goesOn_of_dash hrest
  have hdirective : state.atDirective = false := by
    simp [State.atDirective, hrest]
  have hblock : atAny "|>" state = false := atAny_eq hrest "|>"
  rw [readBlockNode]
  simp [hend, hdirective, hblock, hmark, hfresh, hindent, hitems, finish, State.keep]

/-- **A document of scalars is read as it is written.** -/
theorem exists_readDocument_entries (entry : Entry 0) (entries : List (Entry 0)) :
    ∃ anchored, readDocument (String.ofList (Entry.lines (entry :: entries))) =
      some ⟨some (.mapping none ((entry :: entries).map Entry.nodes)), anchored⟩ := by
  set lines := Entry.lines (entry :: entries) with hlines
  have hprintable := Entry.isPrintable_of_mem_lines (entry :: entries)
  rw [← hlines] at hprintable
  obtain ⟨c, rest, hstart, hc⟩ := entry.exists_lines_eq entries
  rw [← hlines] at hstart
  have hlength := Entry.length_le_length_lines entry entries
  rw [← hlines] at hlength
  obtain ⟨fuel, hfuel⟩ : ∃ fuel, fuelFor lines = fuel + entries.length + 8 :=
    ⟨8 * lines.length + 8 - entries.length, by rw [fuelFor]; omega⟩
  have hread := @Entry.readBlockNode_eq 0 { rest := lines } ⟨-1, false, standardHandles⟩ [] fuel
    entry entries false (by decide) rfl rfl rfl (.inl rfl) (List.append_nil _).symm
  have hend : ((State.pass { rest := lines } lines).withFresh true).rest = [] :=
    State.rest_pass hprintable (List.append_nil _).symm
  rw [← hlines, State.toToken_eq_self (by rw [hend]; exact fun c hc => nomatch hc), ← hfuel]
    at hread
  have htext : (String.ofList lines).toList = lines := String.toList_ofList
  rw [← htext] at hprintable hstart hread
  exact ⟨_, readDocument_eq hprintable hstart hc hread (by rwa [htext])⟩

/-- **An entry with a sequence below it is read as it is written**, up to the end of the text. -/
lemma exists_readEntry_items {name : String} (hword : ∀ c ∈ name.toList, isWordChar c = true)
    (hne : name.toList ≠ []) (hlength : name.toList.length ≤ keyLimit) (item : Item)
    (items : List Item) (hindent : context.indent = 0) (hflow : context.flow = false)
    (hrest : state.rest =
      name.toList ++ ':' :: '\n' :: (item :: items).flatMap Item.written)
    (hfuel : 2 * ((item :: items).flatMap Item.written).length + 9 ≤ fuel) :
    ∃ last, readEntry (fuel + 2) context state =
        some (.scalar none .plain name, .sequence none ((item :: items).map Item.node), last) ∧
      last.rest = [] := by
  obtain ⟨hlong, hbound⟩ := Item.length_le_length_written (item :: items)
  rw [List.length_cons] at hlong
  have hkey := @readKey_eq _ state context fuel name.toList hword hne hlength hflow rfl hrest
  rw [String.ofList_toList] at hkey
  -- the items start on the next line
  obtain ⟨colon, hcolon⟩ : ∃ colon : State, colon =
    ((state.pass name.toList).withFresh false).skip.withFresh false := ⟨_, rfl⟩
  have hcolonRest : colon.rest = '\n' :: (item :: items).flatMap Item.written := by
    rw [hcolon]
    exact State.rest_skip (State.rest_pass
      (fun c hmem => isPrintable_of_isWordChar (hword c hmem)) hrest)
  obtain ⟨start, hstart⟩ : ∃ start : State, start = colon.skipBreak.withFresh true := ⟨_, rfl⟩
  have hstartRest : start.rest = (item :: items).flatMap Item.written := by
    rw [hstart, State.rest_withFresh, State.skipBreak_eq (by decide) hcolonRest]
  have hstartColumn : start.column = 0 := by
    rw [hstart, State.column_withFresh, State.column_skipBreak]
  have htoken : colon.toToken false = start := by
    rw [State.toToken_break (by decide) hcolonRest, State.passChar_of_isBreak (by decide), ← hstart]
    exact Item.toToken_eq_self hstartRest
  obtain ⟨last, hitems, hend⟩ := @Item.exists_readItems_eq fuel _ context start item items hbound
    (by omega) hindent hflow hstartColumn hstartRest
  have hvalue := readBlockNode_of_dash (by rw [hindent, hstartColumn]; rfl)
    (by rw [hstart, State.fresh_withFresh]) hstartRest hitems
  refine ⟨last, ?_, hend⟩
  rw [readEntry, hkey]
  simp only [Option.bind_eq_bind, Option.bind_some, ← hcolon, htoken, hvalue]
  rfl

/-- **A document with a sequence below a key is read as it is written.** -/
theorem exists_readDocument_items {name : String} (hword : ∀ c ∈ name.toList, isWordChar c = true)
    (hne : name.toList ≠ []) (hlength : name.toList.length ≤ keyLimit) (item : Item)
    (items : List Item) :
    ∃ anchored, readDocument (String.ofList
        (name.toList ++ ':' :: '\n' :: (item :: items).flatMap Item.written)) =
      some ⟨some (.mapping none [(.scalar none .plain name,
        .sequence none ((item :: items).map Item.node))]), anchored⟩ := by
  obtain ⟨chars, hchars⟩ :
      ∃ chars, chars = name.toList ++ ':' :: '\n' :: (item :: items).flatMap Item.written :=
    ⟨_, rfl⟩
  obtain ⟨c, rest, hname⟩ := List.exists_cons_of_ne_nil hne
  have hc : isWordChar c = true := hword c (by simp [hname])
  have hstart : chars = c :: (rest ++ ':' :: '\n' :: (item :: items).flatMap Item.written) := by
    rw [hchars, hname, List.cons_append]
  have hprintable : ∀ d ∈ chars, isPrintable d = true := by
    simp only [hchars, List.forall_mem_append, List.forall_mem_cons, List.mem_flatMap]
    refine ⟨fun d hd => isPrintable_of_isWordChar (hword d hd), by decide, by decide, ?_⟩
    rintro d ⟨item', -, hd⟩
    exact item'.isPrintable_of_mem_written d hd
  have hfuel : 2 * ((item :: items).flatMap Item.written).length + 9 ≤ 8 * chars.length + 11 := by
    rw [hstart]
    simp only [List.length_append, List.length_cons]
    omega
  let context : Context := ⟨-1, false, standardHandles⟩
  obtain ⟨last, hentry, hend⟩ := @exists_readEntry_items _ (context.inBlock 0) { rest := chars }
    name hword hne hlength item items rfl rfl hchars hfuel
  have hlast : last.toToken false = last :=
    State.toToken_eq_self (by rw [hend]; exact fun c hc => nomatch hc)
  have hmark : State.atMark { rest := chars } '?' = false := by
    rw [State.atMark_eq hstart, Bool.and_eq_false_iff, beq_eq_false_iff_ne]
    left
    rintro rfl
    exact absurd hc (by decide)
  have hentries := readBlockEntries_last hmark hentry
    (.inl (by rw [hlast, State.atEnd, hend]; rfl))
  rw [hlast] at hentries
  have hkey := @readKey_eq _ { rest := chars } context (8 * chars.length + 14) name.toList hword hne
    hlength rfl rfl hchars
  have hread : readBlockNode (fuelFor chars) context false {} { rest := chars } = some (_, last) :=
    readBlockNode_of_key (show (-1 : Int) < ((0 : ℕ) : Int) by decide) rfl hstart hc hkey hentries
  have htext : (String.ofList chars).toList = chars := String.toList_ofList
  rw [← hchars]
  rw [← htext] at hprintable hstart hread
  exact ⟨_, readDocument_eq hprintable hstart hc hread hend⟩

end EditBatch.Yaml
