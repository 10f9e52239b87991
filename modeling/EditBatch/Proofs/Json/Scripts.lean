import EditBatch.Proofs.Json.Operations
set_option autoImplicit false

/-!
# Scripts read as they are written

A script that is written as the map of its operations is read to its end or not at all. It is read
if every element of the list describes an operation, and then it is these operations.

## Main definitions

* `EditBatch.Json.Tree.IsReadable` — which trees keep to the limits of a text.
* `EditBatch.Json.scriptTree` — the tree of a script.

## Main results

* `EditBatch.Json.readOpName_eq_ok_iff` — which values are taken for names.
* `EditBatch.Json.readOpEntries_eq_ok_iff` — which maps are taken for operations.
* `EditBatch.Json.readOp_eq_ok_iff` — which elements are.
* `EditBatch.Script.ofJson_written` — which texts are scripts.
-/

namespace EditBatch.Json

open Op (Kind)

variable {tree : Tree} {written blanks rest left : List Char}

/-! ## Names -/

/-- What starts with a quote is a text. -/
lemma Tree.WrittenAs.exists_eq_text {tail : List Char} (h : tree.WrittenAs ('"' :: tail)) :
    ∃ value, tree = .text value := by
  cases tree with
  | text value => exact ⟨value, rfl⟩
  | null => cases h
  | bool value => cases value <;> cases h
  | number numeral =>
    obtain ⟨unsigned, hunsigned, heq⟩ := h
    split_ifs at heq
    · cases heq
    · obtain ⟨c, digits, rfl, hc⟩ := hunsigned.exists_start
      cases heq
      cases hc
  | list items =>
    obtain ⟨text, -, heq⟩ := h
    cases heq
  | map entries =>
    obtain ⟨text, -, heq⟩ := h
    cases heq

lemma shaped_eq_ok_iff {α : Type} {value : Except ShapeError α} {a : α} :
    shaped value = .ok a ↔ value = .ok a := mapError_eq_ok_iff

lemma kindOfName_eq_ok_iff {name : String} {kind : Kind} :
    Op.kindOfName name = .ok kind ↔ name = kind.tag := by
  rw [Op.kindOfName]
  constructor
  · intro h
    cases hfind : Kind.ofTag? name with
    | none =>
      rw [hfind] at h
      cases h
    | some found =>
      rw [hfind] at h
      cases h
      exact (eq_of_beq (List.find?_some (p := fun kind : Kind => kind.tag == name) hfind)).symm
  · rintro rfl
    rw [Kind.ofTag?_tag]

/-- **Only the name of a kind of operation is taken for one.** -/
lemma readOpName_eq_ok_iff {kind : Kind} (h : tree.WrittenAs written) (hblanks : IsBlanks blanks) :
    readOpName (blanks ++ (written ++ rest)) = .ok (kind, left) ↔
      tree = .text kind.tag ∧ rest = left := by
  obtain ⟨c, tail, rfl, starts⟩ := h.exists_start
  rw [readOpName, List.cons_append, skipBlanks_blanks hblanks starts.1]
  by_cases hquote : c = '"'
  · subst hquote
    obtain ⟨value, rfl⟩ := h.exists_eq_text
    obtain ⟨text, htext, heq⟩ := h
    obtain rfl := (List.cons.inj heq).2
    have hread := @readText_eq rest _ _ htext
    rw [List.append_assoc, List.singleton_append]
    simp [hread, bind_eq_ok_iff, shaped_eq_ok_iff, kindOfName_eq_ok_iff, pure, Except.pure]
  · have hother : ∀ value, tree ≠ .text value := by
      rintro value rfl
      obtain ⟨text, -, heq⟩ := h
      exact hquote (List.cons.inj heq).1
    refine iff_of_false ?_ fun h => hother _ h.1
    split
    · exact nofun
    · rename_i heq
      exact absurd (List.cons.inj heq).1 hquote
    · exact nofun

/-! ## Maps -/

lemma unnamed_cons (key : String) (value : Tree) (entries : List (String × Tree)) :
    unnamed ((key, value) :: entries) =
      if key = opKey then unnamed entries else (key, value) :: unnamed entries := by
  by_cases hkey : key = opKey <;> simp [unnamed, hkey]

section Step

variable {fuel : ℕ} {first : Bool} {kind : Option Kind} {read : List (Value × Value)} {op : Op}

/-- At the end of the map the operation is made of what was read. -/
lemma readOpEntries_end (hblanks : IsBlanks blanks) :
    readOpEntries (fuel + 1) first kind read (blanks ++ '\x7d' :: rest) = .ok (op, left) ↔
      rest = left ∧ kind = some op.kind ∧ Op.ofMap op.kind read = .ok op := by
  rw [readOpEntries, nextKey_end first hblanks]
  cases kind with
  | none =>
    refine iff_of_false (by rintro ⟨⟩) ?_
    rintro ⟨-, ⟨⟩, -⟩
  | some kind =>
    change (shaped (Op.ofMap kind read) >>= fun made => Except.ok (made, rest)) = _ ↔ _
    rw [bind_eq_ok_iff]
    constructor
    · rintro ⟨made, hmade, ⟨⟩⟩
      rw [shaped_eq_ok_iff] at hmade
      obtain rfl := (Op.exists_entry_of_ofMap hmade).1
      exact ⟨rfl, rfl, hmade⟩
    · rintro ⟨rfl, ⟨⟩, hmade⟩
      exact ⟨op, shaped_eq_ok_iff.mpr hmade, rfl⟩

variable {lead name colon : List Char} {key : String} {result : Op × List Char}

/-- Under the key of the name the name of a kind is read, if none was read before. -/
lemma readOpEntries_name_eq_ok_iff (hlead : IsLead first lead)
    (hname : TextWrittenAs opKey.toList name) (hcolon : IsColon colon)
    (hvalue : tree.WrittenAs written) :
    readOpEntries (fuel + 1) first kind read
        (lead ++ '"' :: (name ++ '"' :: (colon ++ (written ++ rest)))) = .ok result ↔
      kind = none ∧ ∃ named : Kind, tree = .text named.tag ∧
        readOpEntries fuel false (some named) read rest = .ok result := by
  obtain ⟨blanks, hblanks, hbehind⟩ := @exists_expectColon (written ++ rest) _ hcolon
  rw [readOpEntries, nextKey_lead hlead]
  dsimp only [bind, Except.bind]
  rw [if_pos rfl, readText_eq hname]
  dsimp only
  rw [if_pos String.ofList_toList]
  cases kind with
  | some kind =>
    refine iff_of_false (by rintro ⟨⟩) ?_
    rintro ⟨⟨⟩, -⟩
  | none =>
    rw [hbehind]
    change (readOpName (blanks ++ (written ++ rest)) >>= _) = _ ↔ _
    rw [bind_eq_ok_iff]
    constructor
    · rintro ⟨⟨named, behind⟩, hnamed, hrest⟩
      obtain ⟨rfl, rfl⟩ := (readOpName_eq_ok_iff hvalue hblanks).mp hnamed
      exact ⟨rfl, named, rfl, hrest⟩
    · rintro ⟨-, named, rfl, hrest⟩
      exact ⟨(named, rest), (readOpName_eq_ok_iff hvalue hblanks).mpr ⟨rfl, rfl⟩, hrest⟩

/-- Under any other key a value is read and kept. -/
lemma readOpEntries_value_eq_ok_iff (hlead : IsLead first lead)
    (hname : TextWrittenAs key.toList name) (hkey : key ≠ opKey) (hcolon : IsColon colon)
    (hvalue : tree.WrittenAs written) (hrest : Delimited rest) (hfuel : written.length < fuel) :
    readOpEntries (fuel + 1) first kind read
        (lead ++ '"' :: (name ++ '"' :: (colon ++ (written ++ rest)))) = .ok result ↔
      ∃ value, tree.value? nestingLimit = some value ∧
        readOpEntries fuel false kind (read ++ [(.text key, value)]) rest = .ok result := by
  obtain ⟨blanks, hblanks, hbehind⟩ := @exists_expectColon (written ++ rest) _ hcolon
  rw [readOpEntries, nextKey_lead hlead]
  dsimp only [bind, Except.bind]
  rw [if_pos rfl, readText_eq hname]
  dsimp only
  rw [String.ofList_toList, if_neg hkey, hbehind]
  dsimp only
  rw [readValue_eq tree hvalue hblanks hrest hfuel]
  cases tree.value? nestingLimit with
  | none =>
    refine iff_of_false (by rintro ⟨⟩) ?_
    rintro ⟨value, ⟨⟩, -⟩
  | some value =>
    refine ⟨fun hread => ⟨value, rfl, hread⟩, ?_⟩
    rintro ⟨_, ⟨⟩, hread⟩
    exact hread

end Step

/-- **The entries of a map are an operation** if its name stands among them once and the others are
its arguments. What was read before counts as entries in front of them. -/
lemma readOpEntries_eq_ok_iff {entries : List (String × Tree)} {fuel : ℕ} {first : Bool}
    {kind : Option Kind} {read : List (Value × Value)} {op : Op}
    (h : EntriesWrittenAs first entries written) (hfuel : written.length < fuel) :
    readOpEntries fuel first kind read (written ++ rest) = .ok (op, left) ↔
      rest = left ∧
        (kind.toList.map fun kind => Tree.text kind.tag) ++ valuesUnder opKey entries =
          [.text op.kind.tag] ∧
        ∃ values, entriesOf? (unnamed entries) nestingLimit = some values ∧
          Op.ofMap op.kind (read ++ keyed values) = .ok op := by
  induction entries generalizing fuel first kind read written with
  | nil =>
    obtain ⟨fuel, rfl⟩ := Nat.exists_eq_add_of_lt (Nat.zero_lt_of_lt hfuel)
    obtain ⟨blanks, hblanks, rfl⟩ := h
    rw [Nat.zero_add, List.append_assoc, List.singleton_append, readOpEntries_end hblanks]
    have hkind : kind = some op.kind ↔
        (kind.toList.map fun kind => Tree.text kind.tag) = [.text op.kind.tag] := by
      cases kind <;> simp [Op.Kind.tag_injective.eq_iff]
    simp [hkind, unnamed, entriesOf?, valuesUnder, keyed]
  | cons entry entries ih =>
    obtain ⟨fuel, rfl⟩ := Nat.exists_eq_add_of_lt (Nat.zero_lt_of_lt hfuel)
    obtain ⟨key, value⟩ := entry
    obtain ⟨lead, name, colon, text, more, hlead, hname, hcolon, hvalue, hmore, rfl⟩ := h
    obtain ⟨hlength, hdelimited⟩ := delimited_of_entriesWrittenAs hmore rest
    simp only [List.length_append, List.length_cons] at hfuel
    simp only [Nat.zero_add, List.append_assoc, List.cons_append]
    rw [valuesUnder_cons, unnamed_cons]
    by_cases hkey : key = opKey
    · subst hkey
      rw [readOpEntries_name_eq_ok_iff hlead hname hcolon hvalue, if_pos rfl, if_pos rfl]
      constructor
      · rintro ⟨rfl, named, rfl, hread⟩
        exact (ih hmore (by omega)).mp hread
      · intro hall
        cases kind with
        | some kind => simp at hall
        | none =>
          obtain rfl := (List.cons.inj hall.2.1).1
          exact ⟨rfl, op.kind, rfl, (ih hmore (by omega)).mpr hall⟩
    · rw [readOpEntries_value_eq_ok_iff hlead hname hkey hcolon hvalue hdelimited (by omega),
        if_neg hkey, if_neg hkey]
      simp only [ih hmore (show more.length < fuel by omega), List.append_assoc]
      constructor
      · rintro ⟨made, hmade, hleft, hnames, values, hvalues, hop⟩
        exact ⟨hleft, hnames, (key, made) :: values, by rw [entriesOf?, hmade, hvalues]; rfl, hop⟩
      · rintro ⟨hleft, hnames, values, hvalues, hop⟩
        rw [entriesOf?] at hvalues
        simp only [Option.bind_eq_bind, Option.bind_eq_some_iff] at hvalues
        obtain ⟨made, hmade, others, hothers, ⟨⟩⟩ := hvalues
        exact ⟨made, hmade, hleft, hnames, others, hothers, hop⟩

/-! ## Elements -/

/-- How deep lists and maps nest in an element: 128 in all, of which the script and its list take
two. -/
def elementLimit : ℕ := nestingLimit + 1

lemma isSome_value?_map (entries : List (String × Tree)) :
    ((Tree.map entries).value? elementLimit).isSome = (entriesOf? entries nestingLimit).isSome := by
  rw [Tree.value?, if_neg (by decide), Option.isSome_map]
  rfl

lemma isSome_value?_list (items : List Tree) :
    ((Tree.list items).value? elementLimit).isSome = (valuesOf? items nestingLimit).isSome := by
  rw [Tree.value?, if_neg (by decide), Option.isSome_map]
  rfl

section Element

variable {fuel : ℕ} {op : Op}

lemma readOp_map_eq_ok_iff {entries : List (String × Tree)}
    (h : EntriesWrittenAs true entries written) (hfuel : written.length < fuel) :
    readOp fuel ('\x7b' :: (written ++ rest)) = .ok (op, left) ↔
      rest = left ∧ ((Tree.map entries).value? elementLimit).isSome ∧
        Describes (.map entries) op := by
  rw [readOp, skipBlanks_cons (by decide)]
  change readOpEntries fuel true none [] (written ++ rest) = _ ↔ _
  rw [readOpEntries_eq_ok_iff h hfuel, isSome_value?_map]
  refine and_congr_right fun _ => ?_
  simp only [Option.toList_none, List.map_nil, List.nil_append]
  constructor
  · rintro ⟨hname, values, hvalues, hop⟩
    exact ⟨(isSome_entriesOf?_unnamed hname).mp (Option.isSome_iff_exists.mpr ⟨_, hvalues⟩),
      .map hname ((ofMap_keyed_iff_gives hvalues _ op).mp hop).2⟩
  · rintro ⟨hsome, hname, arguments⟩
    obtain ⟨values, hvalues⟩ :=
      Option.isSome_iff_exists.mp ((isSome_entriesOf?_unnamed hname).mpr hsome)
    exact ⟨hname, values, hvalues, (ofMap_keyed_iff_gives hvalues _ op).mpr ⟨rfl, arguments⟩⟩

lemma readOp_list_eq_ok_iff {items : List Tree}
    (h : ItemsWrittenAs true items written) (hfuel : written.length < fuel) :
    readOp fuel ('[' :: (written ++ rest)) = .ok (op, left) ↔
      rest = left ∧ ((Tree.list items).value? elementLimit).isSome ∧
        Describes (.list items) op := by
  rw [readOp, skipBlanks_cons (by decide)]
  change (nextItem true (written ++ rest) >>= _) = _ ↔ _
  cases items with
  | nil =>
    obtain ⟨blanks, hblanks, rfl⟩ := h
    rw [List.append_assoc, List.singleton_append, nextItem_end true hblanks]
    refine iff_of_false (by rintro ⟨⟩) ?_
    rintro ⟨-, -, ⟨⟩⟩
  | cons name items =>
    obtain ⟨lead, text, more, hlead, hname, hmore, rfl⟩ := h
    simp only [List.length_append] at hfuel
    rw [List.append_assoc, List.append_assoc, nextItem_value hlead hname]
    change (readOpName ([] ++ (text ++ (more ++ rest))) >>= _) = _ ↔ _
    rw [bind_eq_ok_iff, isSome_value?_list]
    constructor
    · rintro ⟨⟨kind, behind⟩, hkind, hitems⟩
      obtain ⟨rfl, rfl⟩ := (readOpName_eq_ok_iff hname (List.forall_mem_nil _)).mp hkind
      obtain ⟨⟨read, behind⟩, hread, hmade⟩ := bind_eq_ok_iff.mp hitems
      rw [readItems_eq items hmore (by omega)] at hread
      obtain ⟨hvalues, rfl⟩ := readable_eq_ok_iff.mp hread
      obtain ⟨made, hop, ⟨⟩⟩ := bind_eq_ok_iff.mp hmade
      obtain ⟨rfl, arguments⟩ := (ofList_iff_gives hvalues _ op).mp (shaped_eq_ok_iff.mp hop)
      exact ⟨rfl, isSome_valuesOf?_cons.mpr ⟨rfl, by rw [hvalues]; rfl⟩, .list arguments⟩
    · rintro ⟨rfl, hsome, _ | arguments⟩
      obtain ⟨values, hvalues⟩ := Option.isSome_iff_exists.mp (isSome_valuesOf?_cons.mp hsome).2
      refine ⟨(op.kind, more ++ rest),
        (readOpName_eq_ok_iff hname (List.forall_mem_nil _)).mpr ⟨rfl, rfl⟩,
        bind_eq_ok_iff.mpr ⟨(values, rest), ?_, bind_eq_ok_iff.mpr ⟨op, ?_, rfl⟩⟩⟩
      · rw [readItems_eq items hmore (by omega)]
        exact readable_eq_ok_iff.mpr ⟨hvalues, rfl⟩
      · exact shaped_eq_ok_iff.mpr ((ofList_iff_gives hvalues _ op).mpr ⟨rfl, arguments⟩)

end Element

/-- **An element is read as an operation** exactly if it is readable and describes it. -/
theorem readOp_eq_ok_iff {fuel : ℕ} {op : Op} (h : tree.WrittenAs written)
    (hfuel : written.length < fuel) :
    readOp fuel (written ++ rest) = .ok (op, left) ↔
      rest = left ∧ (tree.value? elementLimit).isSome ∧ Describes tree op := by
  by_cases scalar : tree.IsScalar
  · obtain ⟨c, tail, rfl, starts, hlist, hmap⟩ := scalar.exists_start h
    refine iff_of_false ?_ fun h => (Faulty.scalar scalar).not_describes op h.2.2
    rw [List.cons_append, readOp, skipBlanks_cons starts.1]
    split
    · exact nofun
    · rename_i heq
      exact absurd (List.cons.inj heq).1 hmap
    · rename_i heq
      exact absurd (List.cons.inj heq).1 hlist
    · exact nofun
  · cases tree with
    | list items =>
      obtain ⟨inside, hinside, rfl⟩ := h
      exact readOp_list_eq_ok_iff hinside (Nat.lt_of_succ_lt hfuel)
    | map entries =>
      obtain ⟨inside, hinside, rfl⟩ := h
      exact readOp_map_eq_ok_iff hinside (Nat.lt_of_succ_lt hfuel)
    | _ => exact absurd trivial scalar

/-! ## Lists of elements -/

/-- **A list of elements is read as operations** exactly if each of them is. -/
lemma readOps_eq_ok_iff {elements : List Tree} {fuel : ℕ} {first : Bool} {ops : List Op}
    (h : ItemsWrittenAs first elements written) (hfuel : written.length < fuel) :
    readOps fuel first (written ++ rest) = .ok (ops, left) ↔
      rest = left ∧ (valuesOf? elements elementLimit).isSome ∧
        List.Forall₂ Describes elements ops := by
  induction elements generalizing fuel first ops written left with
  | nil =>
    obtain ⟨fuel, rfl⟩ := Nat.exists_eq_add_of_lt (Nat.zero_lt_of_lt hfuel)
    obtain ⟨blanks, hblanks, rfl⟩ := h
    rw [Nat.zero_add, readOps, List.append_assoc, List.singleton_append, nextItem_end first hblanks]
    change Except.ok ([], rest) = _ ↔ _
    simp [valuesOf?, and_comm, eq_comm]
  | cons element elements ih =>
    obtain ⟨fuel, rfl⟩ := Nat.exists_eq_add_of_lt (Nat.zero_lt_of_lt hfuel)
    obtain ⟨lead, text, more, hlead, helement, hmore, rfl⟩ := h
    have hend := (delimited_of_itemsWrittenAs hmore rest).1
    have hpos := helement.length_pos
    simp only [List.length_append] at hfuel
    rw [Nat.zero_add, List.append_assoc, List.append_assoc, readOps, nextItem_value hlead helement]
    change (readOp fuel (text ++ (more ++ rest)) >>= _) = _ ↔ _
    rw [isSome_valuesOf?_cons]
    constructor
    · intro h
      obtain ⟨⟨op, behind⟩, hop, hbehind⟩ := bind_eq_ok_iff.mp h
      obtain ⟨rfl, hsome, hdescribes⟩ := (readOp_eq_ok_iff helement (by omega)).mp hop
      obtain ⟨⟨others, behind⟩, hothers, ⟨⟩⟩ := bind_eq_ok_iff.mp hbehind
      obtain ⟨rfl, hall, hforall⟩ := (ih hmore (by omega)).mp hothers
      exact ⟨rfl, ⟨hsome, hall⟩, .cons hdescribes hforall⟩
    · rintro ⟨rfl, ⟨hsome, hall⟩, _ | ⟨hdescribes, hforall⟩⟩
      refine bind_eq_ok_iff.mpr ⟨(_, more ++ rest),
        (readOp_eq_ok_iff helement (by omega)).mpr ⟨rfl, hsome, hdescribes⟩,
        bind_eq_ok_iff.mpr ⟨(_, rest), (ih hmore (by omega)).mpr ⟨rfl, hall, hforall⟩, rfl⟩⟩

/-! ## Scripts -/

/-- How deep lists and maps nest in a text. -/
def textLimit : ℕ := elementLimit + 2

/-- Whether a tree keeps to the limits: it nests less than 128 deep, and no number in it is too
great. -/
structure Tree.IsReadable (tree : Tree) : Prop where
  depth : tree.depth < textLimit
  numerals : ∀ numeral ∈ tree.numerals, numeral.value?.isSome

/-- A script that is written as the map of its operations. -/
def scriptTree (elements : List Tree) : Tree := .map [(opsKey, .list elements)]

/-- A script is written by writing its operations between two texts that are always the same. -/
lemma scriptTree_writtenAlone {elements : List Tree} {items : List Char}
    (h : ItemsWrittenAs true elements items) :
    (scriptTree elements).WrittenAlone ("\x7b\"edits\": [".toList ++ (items ++ ['\x7d'])) := by
  have hnone : IsBlanks [] := List.forall_mem_nil _
  have hcolon : IsColon [':', ' '] := ⟨[], [' '], hnone, List.forall_mem_singleton.mpr rfl, rfl⟩
  have hentries : EntriesWrittenAs true [(opsKey, .list elements)]
      ('"' :: (opsKey.toList ++ '"' :: ([':', ' '] ++ ('[' :: items ++ ['\x7d'])))) :=
    ⟨[], opsKey.toList, [':', ' '], '[' :: items, ['\x7d'], hnone, textWrittenAs_self (by decide),
      hcolon, ⟨items, h, rfl⟩, ⟨[], hnone, rfl⟩, rfl⟩
  exact ⟨[], _, [], hnone, ⟨_, hentries, rfl⟩, hnone, (List.append_nil _).symm⟩

lemma isReadable_scriptTree_iff (elements : List Tree) :
    (scriptTree elements).IsReadable ↔ (valuesOf? elements elementLimit).isSome := by
  have hdepth : (scriptTree elements).depth < textLimit ↔ itemsDepth elements < elementLimit := by
    simp only [scriptTree, Tree.depth, entriesDepth, textLimit, Nat.max_zero]
    omega
  have hnumerals : (scriptTree elements).numerals = itemsNumerals elements := by
    simp only [scriptTree, Tree.numerals, entriesNumerals, List.append_nil]
  rw [isSome_valuesOf?_iff elements (by decide), ← hdepth, ← hnumerals]
  exact ⟨fun h => ⟨h.depth, h.numerals⟩, fun h => ⟨h.1, h.2⟩⟩

section Script

variable {fuel : ℕ} {first : Bool} {lead name text : List Char} {elements : List Tree}

lemma readScriptEntries_end (hblanks : IsBlanks blanks) (ops : Option (List Op)) :
    readScriptEntries (fuel + 1) first ops (blanks ++ '\x7d' :: rest) =
      .ok (⟨ops.getD []⟩, rest) := by
  rw [readScriptEntries, nextKey_end first hblanks]
  rfl

/-- Under their key stands the list of the operations. -/
lemma readScriptEntries_ops (hlead : IsLead first lead) (hname : TextWrittenAs opsKey.toList name)
    (hcolon : expectColon text = .ok rest) :
    readScriptEntries (fuel + 1) first none (lead ++ '"' :: (name ++ '"' :: text)) =
      readOpList fuel rest >>= fun (ops, rest) => readScriptEntries fuel false (some ops) rest := by
  rw [readScriptEntries, nextKey_lead hlead]
  dsimp only [bind, Except.bind]
  rw [if_pos rfl, readText_eq hname]
  dsimp only
  rw [if_pos String.ofList_toList, hcolon]
  rfl

/-- **The map of a script is read** exactly if every element of its list is read as an operation. -/
lemma readScriptEntries_eq_ok_iff {script : Script}
    (h : EntriesWrittenAs true [(opsKey, .list elements)] written) (hfuel : written.length < fuel) :
    readScriptEntries fuel true none (written ++ rest) = .ok (script, left) ↔
      rest = left ∧ (valuesOf? elements elementLimit).isSome ∧
        List.Forall₂ Describes elements script.ops := by
  obtain ⟨lead, name, colon, text, more, hlead, hname, hcolon, hlist, hmore, rfl⟩ := h
  obtain ⟨items, hitems, rfl⟩ := hlist
  obtain ⟨behind, hbehind, rfl⟩ := hmore
  simp only [List.length_append, List.length_cons] at hfuel
  obtain ⟨fuel, rfl⟩ : ∃ more, fuel = more + 2 := ⟨fuel - 2, by omega⟩
  obtain ⟨blanks, hblanks, hvalue⟩ :=
    @exists_expectColon ('[' :: (items ++ (behind ++ '\x7d' :: rest))) _ hcolon
  simp only [List.append_assoc, List.cons_append, List.nil_append]
  rw [readScriptEntries_ops hlead hname hvalue, readOpList, skipBlanks_blanks hblanks (by decide)]
  change (readOps (fuel + 1) true (items ++ (behind ++ '\x7d' :: rest)) >>= _) = _ ↔ _
  rw [bind_eq_ok_iff]
  constructor
  · rintro ⟨⟨ops, more⟩, hops, hread⟩
    obtain ⟨rfl, hall⟩ := (readOps_eq_ok_iff hitems (by omega)).mp hops
    dsimp only at hread
    rw [readScriptEntries_end hbehind] at hread
    cases hread
    exact ⟨rfl, hall⟩
  · rintro ⟨rfl, hall⟩
    exact ⟨(script.ops, _), (readOps_eq_ok_iff hitems (by omega)).mpr ⟨rfl, hall⟩,
      readScriptEntries_end hbehind _⟩

end Script

end EditBatch.Json

namespace EditBatch

open Json

/-- **A text is read as a script** exactly if every element of its list is read as an operation. -/
theorem Script.ofJson_eq_ok_iff {text : String} {elements : List Json.Tree} {script : Script}
    (h : (scriptTree elements).WrittenAlone text.toList) :
    Script.ofJson text = .ok script ↔ (scriptTree elements).IsReadable ∧
      List.Forall₂ Describes elements script.ops := by
  obtain ⟨before, written, behind, hbefore, ⟨inside, hinside, rfl⟩, hbehind, htext⟩ := h
  rw [Script.ofJson, htext, List.cons_append, skipBlanks_blanks hbefore (by decide)]
  change (readScriptEntries (fuelFor (before ++ '\x7b' :: (inside ++ behind))) true none
    (inside ++ behind) >>= _) = _ ↔ _
  have hfuel : inside.length < fuelFor (before ++ '\x7b' :: (inside ++ behind)) := by
    simp only [fuelFor, List.length_append, List.length_cons]
    omega
  have hend : (skipBlanks behind).isEmpty = true := by
    rw [← List.append_nil behind, skipBlanks_append hbehind]
    rfl
  rw [bind_eq_ok_iff, isReadable_scriptTree_iff]
  constructor
  · rintro ⟨⟨read, rest⟩, hread, hall⟩
    obtain ⟨rfl, hdescribes⟩ := (readScriptEntries_eq_ok_iff hinside hfuel).mp hread
    dsimp only at hall
    rw [if_pos hend] at hall
    cases hall
    exact hdescribes
  · intro hdescribes
    exact ⟨(script, behind), (readScriptEntries_eq_ok_iff hinside hfuel).mpr ⟨rfl, hdescribes⟩,
      if_pos hend⟩

/-- **The elements of a script are read all or not at all**, in whatever way they are written. If
each of them describes an operation, and nothing nests too deep or is too great, the script has just
these operations. If there is a fault in one of them, there is no script.

**Proof sketch.** Each element is read on its own, exactly if it describes an operation
(`readOp_eq_ok_iff`): a map keeps its entries as values until its end, where those that are no
argument fall away (`Op.ofMap_keyed_iff`). The induction on the list adds only the commas. With a
fault an element describes nothing (`Faulty.not_describes`). -/
theorem Script.ofJson_written {text : String} {elements : List Json.Tree}
    (h : (scriptTree elements).WrittenAlone text.toList) :
    (∀ ops, (scriptTree elements).IsReadable →
      List.Forall₂ Describes elements ops → Script.ofJson text = .ok ⟨ops⟩) ∧
    ((∃ element ∈ elements, Faulty element) → ∃ cause, Script.ofJson text = .error cause) := by
  constructor
  · intro ops hsome hdescribes
    exact (Script.ofJson_eq_ok_iff h).mpr ⟨hsome, hdescribes⟩
  · rintro ⟨element, hmem, faulty⟩
    cases hread : Script.ofJson text with
    | error cause => exact ⟨cause, rfl⟩
    | ok script =>
      have hall := ((Script.ofJson_eq_ok_iff h).mp hread).2
      have hsound : ∀ element ∈ elements, ¬ Faulty element :=
        ((List.forall₂_and_left elements script.ops).mp (hall.imp fun _ op hdescribes =>
          ⟨fun faulty => faulty.not_describes op hdescribes, hdescribes⟩)).1
      exact absurd faulty (hsound element hmem)

/-- A map with its name at the end and something unknown in it is read, and so is a list. A list
without its last item is none, and then there is no script. -/
theorem Script.ofJson_written_forms :
    Script.ofJson ("\x7b\"edits\": [\x7b\"x\": [], \"offset\": 7, " ++
        "\"op\": \"move_cursor_to\"\x7d, [\"delete\", 1, 2]]\x7d") =
      .ok ⟨[.moveCaret 7, .delete 1 2]⟩ ∧
      ∃ cause, Script.ofJson "\x7b\"edits\": [[\"delete\", 1]]\x7d" = .error cause := by
  have hnone : IsBlanks [] := List.forall_mem_nil _
  have hspace : IsBlanks [' '] := List.forall_mem_singleton.mpr rfl
  have hcolon : IsColon [':', ' '] := ⟨[], [' '], hnone, hspace, rfl⟩
  have hcomma : IsLead false [',', ' '] := ⟨[], [' '], hnone, hspace, rfl⟩
  let one : Json.Tree := .number ⟨false, [1], [], none⟩
  let two : Json.Tree := .number ⟨false, [2], [], none⟩
  let seven : Json.Tree := .number ⟨false, [7], [], none⟩
  have hone : one.WrittenAs ['1'] := @Numeral.writtenAs_digit '1' rfl
  have htwo : two.WrittenAs ['2'] := @Numeral.writtenAs_digit '2' rfl
  have hseven : seven.WrittenAs ['7'] := @Numeral.writtenAs_digit '7' rfl
  have hmoveCaret : (Json.Tree.text "move_cursor_to").WrittenAs "\"move_cursor_to\"".toList :=
    ⟨"move_cursor_to".toList, textWrittenAs_self (by decide), by decide⟩
  have hdelete : (Json.Tree.text "delete").WrittenAs "\"delete\"".toList :=
    ⟨"delete".toList, textWrittenAs_self (by decide), by decide⟩
  -- The two texts differ in their elements only.
  have hgood : ItemsWrittenAs true
      [.map [("x", .list []), ("offset", seven), ("op", .text "move_cursor_to")],
        .list [.text "delete", one, two]] _ :=
    ⟨[], _, _, hnone,
      ⟨_, ⟨[], _, _, _, _, hnone, textWrittenAs_self (by decide), hcolon,
          ⟨_, ⟨[], hnone, rfl⟩, rfl⟩,
        ⟨_, _, _, _, _, hcomma, textWrittenAs_self (by decide), hcolon, hseven,
        ⟨_, _, _, _, _, hcomma, textWrittenAs_self (by decide), hcolon, hmoveCaret,
        ⟨[], hnone, rfl⟩, rfl⟩, rfl⟩, rfl⟩, rfl⟩,
      ⟨_, _, _, hcomma, ⟨_, ⟨[], _, _, hnone, hdelete,
        ⟨_, _, _, hcomma, hone, ⟨_, _, _, hcomma, htwo, ⟨[], hnone, rfl⟩, rfl⟩, rfl⟩, rfl⟩, rfl⟩,
      ⟨[], hnone, rfl⟩, rfl⟩, rfl⟩
  have hbad : ItemsWrittenAs true [.list [.text "delete", one]] _ :=
    ⟨[], _, _, hnone, ⟨_, ⟨[], _, _, hnone, hdelete,
      ⟨_, _, _, hcomma, hone, ⟨[], hnone, rfl⟩, rfl⟩, rfl⟩, rfl⟩, ⟨[], hnone, rfl⟩, rfl⟩
  refine ⟨(Script.ofJson_written (scriptTree_writtenAlone hgood)).1 _ ⟨by decide, by decide⟩
      (.cons (.map rfl ?_) (.cons (@Describes.list _ (.delete 1 2) ?_) .nil)),
    (Script.ofJson_written (scriptTree_writtenAlone hbad)).2 ⟨_, List.mem_singleton_self _, ?_⟩⟩
  · rintro argument (_ | ⟨_, ⟨⟩⟩)
    exact ⟨seven, rfl, .number ⟨rfl, rfl, rfl, rfl⟩⟩
  · exact .cons (.number ⟨rfl, rfl, rfl, rfl⟩) (.cons (.number ⟨rfl, rfl, rfl, rfl⟩) .nil)
  · exact @Faulty.itemCount _ .delete (by decide)

end EditBatch
