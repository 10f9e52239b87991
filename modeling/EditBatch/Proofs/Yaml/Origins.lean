import EditBatch.Proofs.Arguments
import EditBatch.Yaml.Script
set_option autoImplicit false

/-!
# Where the arguments of a script come from

Whatever the shape of a document, every argument of an operation that is read from it is what a
scalar stands for, under the name of the argument or in its place. Without a tag, that is a text
between quotes, and what the meaning of the text says without quotes.

## Main definitions

* `EditBatch.Yaml.Node.Within` — a node stands somewhere in another one, aliases followed.
* `EditBatch.Yaml.StandsFor` — a node is a scalar that stands for an argument.
* `EditBatch.Yaml.Gives` — a node gives an operation one of its arguments.
* `EditBatch.Yaml.OpWithin` — a node somewhere in another one gives an operation all of them.

## Main results

* `EditBatch.Yaml.gives_of_readOp` — an operation is given all its arguments by the node it is read
  from.
* `EditBatch.Yaml.exists_opWithin_of_ofYaml?` — so are all operations of a script.
-/

namespace EditBatch.Yaml

variable {anchored : Anchored}

/-- A node stands in another one, in which the aliases are followed. -/
inductive Node.Within (anchored : Anchored) (node : Node) : Node → Prop where
  | refl : Within anchored node node
  | reference {anchor : ℕ} {target : Node} (lookup : anchored.lookup anchor = some target)
      (within : Within anchored node target) : Within anchored node (.reference anchor)
  | item {tag : Option String} {items : List Node} {item : Node} (mem : item ∈ items)
      (within : Within anchored node item) : Within anchored node (.sequence tag items)
  | value {tag : Option String} {entries : List (Node × Node)} {entry : Node × Node}
      (mem : entry ∈ entries) (within : Within anchored node entry.2) :
      Within anchored node (.mapping tag entries)

/-! ## Scalars that stand for arguments -/

/-- A scalar without a tag writes an argument: a text that is its own, and means nothing else if
there are no quotes, or the whole number that stands there without quotes. -/
def Writes (style : Style) (written : String) : Op.Argument → Prop
  | .text text => text = written ∧ (style = .plain → meaning written = .text)
  | .number number =>
    style = .plain ∧ ∃ negative, whole? written.toList = some (negative, number.toNat)

variable {argument : Op.Argument}

/-- A whole number that is meant is written. -/
lemma whole?_of_meaning {written : String} {found : Meaning}
    (hfound : (∃ number, found = .unsigned number) ∨ ∃ number, found = .signed number)
    (h : meaning written = found) :
    ∃ negative number, whole? written.toList = some (negative, number) ∧
      wholeMeaning? negative number = some found := by
  have hnone : found ≠ .null ∧ found ≠ .text ∧ (∀ value, found ≠ .bool value) ∧
      ∀ value, found ≠ .decimal value := by
    rcases hfound with ⟨number, rfl⟩ | ⟨number, rfl⟩ <;> simp
  obtain ⟨hnull, htext, hbool, hdecimal⟩ := hnone
  rw [meaning] at h
  split_ifs at h
  · exact absurd h.symm hnull
  · cases hvalue : bool? written with
    | some value => rw [hvalue] at h; exact absurd h.symm (hbool value)
    | none =>
      rw [hvalue] at h
      dsimp only at h
      generalize hwhole : (whole? written.toList).bind _ = outcome at h
      cases outcome with
      | some other =>
        obtain ⟨⟨negative, number⟩, hnumber, hmeaning⟩ := Option.bind_eq_some_iff.mp hwhole
        exact ⟨negative, number, hnumber, by rw [← h]; exact hmeaning⟩
      | none =>
        dsimp only at h
        split_ifs at h
        · exact absurd h.symm htext
        · split at h
          · exact absurd h.symm (hdecimal _)
          · exact absurd h.symm htext

/-- A whole number that is an argument is the number that is meant. -/
lemma exists_number_of_wholeMeaning? {negative : Bool} {number : ℕ} {found : Meaning}
    {written : String} (hfound : wholeMeaning? negative number = some found)
    (h : (found.value? written).bind Value.argument? = some argument) :
    ∃ offset : UInt64, argument = .number offset ∧ offset.toNat = number := by
  unfold wholeMeaning? at hfound
  split_ifs at hfound with hsign hsmall _ hlarge <;> cases hfound
  · -- only zero may have a minus sign
    rw [Meaning.value?, Option.bind_some, Value.argument?] at h
    split_ifs at h with hzero
    cases h
    obtain rfl : number = 0 := by omega
    exact ⟨_, rfl, rfl⟩
  · cases h
  · cases h
    exact ⟨_, rfl, UInt64.toNat_ofNat_of_lt hlarge⟩
  · cases h

/-- **What a scalar without a tag stands for is written there.** -/
lemma writes_of_scalarValue? {style : Style} {written : String}
    (h : (scalarValue? none style written).bind Value.argument? = some argument) :
    Writes style written argument := by
  have hlocal : isLocalTag none = false := rfl
  simp only [scalarValue?, hlocal, Bool.false_eq_true, if_false] at h
  split_ifs at h with hplain
  · have hnumber : ((∃ number, meaning written = .unsigned number) ∨
        ∃ number, meaning written = .signed number) → Writes style written argument := by
      intro hfound
      obtain ⟨negative, number, hwhole, hmeaning⟩ := whole?_of_meaning hfound rfl
      obtain ⟨offset, rfl, hoffset⟩ := exists_number_of_wholeMeaning? hmeaning h
      exact ⟨hplain, negative, by rw [hwhole, hoffset]⟩
    cases hmeaning : meaning written with
    | text =>
      rw [hmeaning] at h
      cases h
      exact ⟨rfl, fun _ => hmeaning⟩
    | unsigned number => exact hnumber (.inl ⟨number, hmeaning⟩)
    | signed number => exact hnumber (.inr ⟨number, hmeaning⟩)
    | _ => rw [hmeaning] at h; cases h
  · cases h
    exact ⟨rfl, fun hstyle => absurd hstyle hplain⟩

/-! ## What decoders read -/

namespace Decoder

variable {α β : Type} {decoder : Decoder α} {next : α → Decoder β} {left : ℕ} {b : β × ℕ}

/-- A decoder that goes on with a value succeeds if it gets the value and goes on to the result. -/
lemma bind_eq_some_iff :
    (decoder >>= next) left = some b ↔
      ∃ a between, decoder left = some (a, between) ∧ next a between = some b := by
  simp only [bind, StateT.bind, Option.bind_eq_some_iff, Prod.exists]

lemma eq_some_of_lift {value? : Option α} {result : α × ℕ}
    (h : (liftM value? : Decoder α) left = some result) : value? = some result.1 := by
  cases value? with
  | none => cases h
  | some value => cases h; rfl

/-- Each value read from items is read from the item in its place. -/
lemma exists_item_of_mapM {γ : Type} {read : γ → Decoder α} {items : List γ} {values : List α}
    {after : ℕ} (h : items.mapM read left = some (values, after)) {place : ℕ} {value : α}
    (hvalue : values[place]? = some value) :
    ∃ item, items[place]? = some item ∧
      ∃ before between, read item before = some (value, between) := by
  induction items generalizing left values place with
  | nil =>
    cases h
    cases hvalue
  | cons item items ih =>
    rw [List.mapM_cons] at h
    obtain ⟨first, between, hfirst, hrest⟩ := bind_eq_some_iff.mp h
    obtain ⟨others, behind, hothers, hvalues⟩ := bind_eq_some_iff.mp hrest
    cases hvalues
    cases place with
    | zero =>
      cases hvalue
      exact ⟨item, rfl, left, between, hfirst⟩
    | succ place => exact ih hothers hvalue

end Decoder

open Decoder

/-- A node is a scalar that stands for an argument, or an alias of one. Without a tag the argument
is written there. -/
inductive StandsFor (anchored : Anchored) (argument : Op.Argument) : Node → Prop where
  | scalar {tag : Option String} {style : Style} {written : String}
      (value : (scalarValue? tag style written).bind Value.argument? = some argument)
      (writes : tag = none → Writes style written argument) :
      StandsFor anchored argument (.scalar tag style written)
  | reference {anchor : ℕ} {target : Node} (lookup : anchored.lookup anchor = some target)
      (stands : StandsFor anchored argument target) :
      StandsFor anchored argument (.reference anchor)

/-- A node gives an operation one of its arguments: as an entry with the name of the argument, or as
the item in its place. -/
inductive Gives (anchored : Anchored) (kind : Op.Kind) (own : Op.Field × Op.Argument) :
    Node → Prop where
  | entry {tag : Option String} {entries : List (Node × Node)} {entry : Node × Node}
      {name : Value} {left after : ℕ} (mem : entry ∈ entries)
      (named : readValue anchored nestingLimit entry.1 left = some (name, after))
      (field : Op.fieldOfKey kind name = .ok (some own.1))
      (stands : StandsFor anchored own.2 entry.2) : Gives anchored kind own (.mapping tag entries)
  | item {tag : Option String} {name item : Node} {items : List Node} {place : ℕ}
      (field : kind.fields[place]? = some own.1) (mem : items[place]? = some item)
      (stands : StandsFor anchored own.2 item) :
      Gives anchored kind own (.sequence tag (name :: items))
  | reference {anchor : ℕ} {target : Node} (lookup : anchored.lookup anchor = some target)
      (gives : Gives anchored kind own target) : Gives anchored kind own (.reference anchor)

variable {left after : ℕ} {node target : Node} {op : Op} {own : Op.Field × Op.Argument}

/-- What holds of the node that an alias refers to holds of the alias. -/
lemma of_follow {P : Node → Prop}
    (reference : ∀ {anchor target}, anchored.lookup anchor = some target → P target →
      P (.reference anchor))
    (h : follow anchored node left = some (target, after)) (htarget : P target) : P node := by
  cases node with
  | reference anchor =>
    rw [follow] at h
    obtain ⟨count, between, hget, hrest⟩ := bind_eq_some_iff.mp h
    cases hget
    dsimp only at hrest
    split at hrest
    · cases hrest
    · obtain ⟨_, _, -, hfound⟩ := bind_eq_some_iff.mp hrest
      cases hlookup : anchored.lookup anchor with
      | none => rw [hlookup] at hfound; cases hfound
      | some found =>
        rw [hlookup] at hfound
        cases hfound
        exact reference hlookup htarget
  | _ => cases h; exact htarget

/-- A value that is an argument is read from a scalar. -/
lemma standsFor_of_readValue {depth : ℕ} {value : Value}
    (h : readValue anchored depth node left = some (value, after))
    (hargument : value.argument? = some argument) : StandsFor anchored argument node := by
  have hscalar : ∀ {tag style written}, scalarValue? tag style written = some value →
      StandsFor anchored argument (.scalar tag style written) := by
    intro tag style written hvalue
    have hbind : (scalarValue? tag style written).bind Value.argument? = some argument := by
      rw [hvalue]
      exact hargument
    refine .scalar hbind ?_
    rintro rfl
    exact writes_of_scalarValue? hbind
  cases depth with
  | zero =>
    obtain ⟨root, between, hfollow, hrest⟩ := bind_eq_some_iff.mp h
    refine of_follow .reference hfollow ?_
    cases root with
    | scalar tag style written => exact hscalar (eq_some_of_lift hrest)
    | _ => cases hrest
  | succ depth =>
    obtain ⟨root, between, hfollow, hrest⟩ := bind_eq_some_iff.mp h
    refine of_follow .reference hfollow ?_
    -- a collection is no argument
    cases root with
    | scalar tag style written => exact hscalar (eq_some_of_lift hrest)
    | sequence tag items =>
      dsimp only at hrest
      split at hrest
      · cases hrest
      · obtain ⟨values, _, -, hvalues⟩ := bind_eq_some_iff.mp hrest
        cases hvalues
        cases hargument
    | mapping tag entries =>
      dsimp only at hrest
      split at hrest
      · cases hrest
      · obtain ⟨values, _, -, hvalues⟩ := bind_eq_some_iff.mp hrest
        cases hvalues
        cases hargument
    | reference anchor => cases hrest

/-! ## Operations -/

lemma eq_ok_of_wellShaped {α : Type} {value : Except ShapeError α} {result : α × ℕ}
    (h : wellShaped value left = some result) : value = .ok result.1 := by
  cases value with
  | error cause => cases h
  | ok value => cases h; rfl

/-- An argument of an operation comes from an entry read before, or from one still to be read. -/
lemma exists_entry_of_readOpEntries {kind : Option Op.Kind} {read : List (Value × Value)}
    {entries : List (Node × Node)}
    (h : readOpEntries anchored kind read entries left = some (op, after))
    (hmem : own ∈ op.arguments) :
    (∃ entry ∈ read, Op.fieldOfKey op.kind entry.1 = .ok (some own.1) ∧
        entry.2.argument? = some own.2) ∨
      ∃ entry ∈ entries, ∃ name before between,
        readValue anchored nestingLimit entry.1 before = some (name, between) ∧
          Op.fieldOfKey op.kind name = .ok (some own.1) ∧ StandsFor anchored own.2 entry.2 := by
  induction entries generalizing kind read left with
  | nil =>
    cases kind with
    | none => cases h
    | some kind =>
      obtain ⟨rfl, hentries⟩ := Op.exists_entry_of_ofMap (eq_ok_of_wellShaped h)
      exact .inl (hentries own hmem)
  | cons entry entries ih =>
    obtain ⟨key, value⟩ := entry
    rw [readOpEntries] at h
    obtain ⟨name, between, hkey, hrest⟩ := bind_eq_some_iff.mp h
    dsimp only at hrest
    split_ifs at hrest
    · -- a second name
      cases hrest
    · -- the name of the operation
      obtain ⟨text, _, -, hname⟩ := bind_eq_some_iff.mp hrest
      obtain ⟨found, _, -, hmore⟩ := bind_eq_some_iff.mp hname
      obtain hread | ⟨other, hother, hstands⟩ := ih hmore
      · exact .inl hread
      · exact .inr ⟨other, List.mem_cons_of_mem _ hother, hstands⟩
    · obtain ⟨found, _, hvalue, hmore⟩ := bind_eq_some_iff.mp hrest
      obtain ⟨other, hother, hfield, hargument⟩ | ⟨other, hother, hstands⟩ := ih hmore
      · obtain hread | rfl := List.mem_append.mp hother |>.imp_right List.mem_singleton.mp
        · exact .inl ⟨other, hread, hfield, hargument⟩
        · exact .inr ⟨(key, value), List.mem_cons_self, name, _, _, hkey, hfield,
            standsFor_of_readValue hvalue hargument⟩
      · exact .inr ⟨other, List.mem_cons_of_mem _ hother, hstands⟩

/-- **An operation is given all its arguments by the node it is read from.** -/
theorem gives_of_readOp (h : readOp anchored node left = some (op, after))
    (hmem : own ∈ op.arguments) : Gives anchored op.kind own node := by
  obtain ⟨root, between, hfollow, hrest⟩ := bind_eq_some_iff.mp h
  refine of_follow .reference hfollow ?_
  dsimp only at hrest
  split at hrest
  · split at hrest
    · cases hrest
    · obtain ⟨entry, hentry, -⟩ | ⟨entry, hentry, name, _, _, hname, hfield, hstands⟩ :=
        exists_entry_of_readOpEntries hrest hmem
      · cases hentry
      · exact .entry hentry hname hfield hstands
  · split at hrest
    · cases hrest
    · obtain ⟨text, _, -, hname⟩ := bind_eq_some_iff.mp hrest
      obtain ⟨kind, _, -, hitems⟩ := bind_eq_some_iff.mp hname
      obtain ⟨values, _, hvalues, hop⟩ := bind_eq_some_iff.mp hitems
      obtain ⟨rfl, hread⟩ := Op.exists_item_of_ofList (eq_ok_of_wellShaped hop)
      obtain ⟨place, value, hfield, hvalue, hargument⟩ := hread own hmem
      obtain ⟨item, hitem, _, _, hsource⟩ := exists_item_of_mapM hvalues hvalue
      exact .item hfield hitem (standsFor_of_readValue hsource hargument)
  · cases hrest

/-! ## Scripts -/

/-- An operation is given all its arguments by a node in another one. -/
def OpWithin (anchored : Anchored) (op : Op) (root : Node) : Prop :=
  ∃ node, Node.Within anchored node root ∧
    ∀ own ∈ op.arguments, Gives anchored op.kind own node

lemma OpWithin.imp {root : Node} (h : OpWithin anchored op node)
    (hwithin : ∀ inner, Node.Within anchored inner node → Node.Within anchored inner root) :
    OpWithin anchored op root := by
  obtain ⟨inner, hinner, hgives⟩ := h
  exact ⟨inner, hwithin inner hinner, hgives⟩

/-- Operations are read from nodes in their node. -/
lemma opWithin_of_readOps {ops : List Op} (h : readOps anchored node left = some (ops, after))
    (hop : op ∈ ops) : OpWithin anchored op node := by
  obtain ⟨root, between, hfollow, hrest⟩ := bind_eq_some_iff.mp h
  refine of_follow (fun hlookup hroot => hroot.imp fun _ => .reference hlookup) hfollow ?_
  split at hrest
  · obtain ⟨place, hplace⟩ := List.getElem?_of_mem hop
    obtain ⟨item, hitem, _, _, hread⟩ := exists_item_of_mapM hrest hplace
    exact ⟨item, .item (List.mem_of_getElem? hitem) .refl, fun own => gives_of_readOp hread⟩
  · split at hrest
    · cases hrest
      cases hop
    · cases hrest

/-- The operations of a script were read before, or are read from nodes in the entries still to be
read. -/
lemma opWithin_of_readScriptEntries {ops : Option (List Op)} {entries : List (Node × Node)}
    {script : Script} (h : readScriptEntries anchored ops entries left = some (script, after))
    (hop : op ∈ script.ops) :
    op ∈ ops.getD [] ∨ ∃ entry ∈ entries, OpWithin anchored op entry.2 := by
  induction entries generalizing ops left with
  | nil =>
    cases h
    exact .inl hop
  | cons entry entries ih =>
    obtain ⟨key, value⟩ := entry
    rw [readScriptEntries] at h
    obtain ⟨name, between, -, hrest⟩ := bind_eq_some_iff.mp h
    dsimp only at hrest
    split at hrest
    · split at hrest
      · cases hrest
      · obtain ⟨found, _, hfound, hmore⟩ := bind_eq_some_iff.mp hrest
        obtain hread | ⟨other, hother, hwithin⟩ := ih hmore
        · exact .inr ⟨(key, value), List.mem_cons_self, opWithin_of_readOps hfound hread⟩
        · exact .inr ⟨other, List.mem_cons_of_mem _ hother, hwithin⟩
    · obtain hread | ⟨other, hother, hwithin⟩ := ih hrest
      · exact .inl hread
      · exact .inr ⟨other, List.mem_cons_of_mem _ hother, hwithin⟩

/-- The operations of a script are read from nodes in its node. -/
lemma opWithin_of_readScript {script : Script}
    (h : readScript anchored node left = some (script, after)) (hop : op ∈ script.ops) :
    OpWithin anchored op node := by
  obtain ⟨root, between, hfollow, hrest⟩ := bind_eq_some_iff.mp h
  refine of_follow (fun hlookup hroot => hroot.imp fun _ => .reference hlookup) hfollow ?_
  split at hrest
  · obtain hread | ⟨entry, hentry, hwithin⟩ := opWithin_of_readScriptEntries hrest hop
    · cases hread
    · exact hwithin.imp fun _ => .value hentry
  · split at hrest
    · cases hrest
      cases hop
    · cases hrest

/-- **Every operation of a script is given all its arguments by a node of the document.** -/
theorem exists_opWithin_of_ofYaml? {text : String} {script : Script}
    (h : Script.ofYaml? text = some script) (hop : op ∈ script.ops) :
    ∃ contents root, readDocument text = some contents ∧ contents.root = some root ∧
      OpWithin contents.anchored op root := by
  obtain ⟨contents, hread, hrest⟩ := Option.bind_eq_some_iff.mp h
  cases hroot : contents.root with
  | none =>
    rw [hroot] at hrest
    cases hrest
    cases hop
  | some root =>
    rw [hroot] at hrest
    obtain ⟨⟨_, _⟩, hscript, rfl⟩ := Option.map_eq_some_iff.mp hrest
    exact ⟨contents, root, hread, hroot, opWithin_of_readScript hscript hop⟩

end EditBatch.Yaml
