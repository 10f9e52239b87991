import EditBatch.Proofs.Arguments
import Mathlib.Data.List.Forall2
import Mathlib.Data.List.Nodup
set_option autoImplicit false

/-!
# Arguments in any order

Of the entries of a map, only those under the name of an argument matter for it, wherever they stand
among others. There has to be exactly one, and it has to stand for what the argument may be. A list
is read as the map that has its items under the names of the arguments, in the order of writing.

## Main definitions

* `EditBatch.valuesUnder` — what stands under a name, in order.
* `EditBatch.Op.Field.argument?` — the argument that a value stands for where it is wanted.
* `EditBatch.Op.Field.Takes` — the kind of argument that is wanted.
* `EditBatch.Op.Slots.held` — what is in the slot of a field.
* `EditBatch.Op.argumentsUnder`, `EditBatch.Op.argumentsFor` — what entries stand for in the place
  of a field.

## Main results

* `EditBatch.Op.readEntries_keyed_iff` — what is in the slots after the entries of a map.
* `EditBatch.Op.ofMap_keyed_iff` — which maps are an operation.
* `EditBatch.Op.ofList_eq_ok_iff` — which lists are.
-/

namespace EditBatch

/-! ## Entries under names -/

/-- What stands under a name, in order. -/
def valuesUnder {α : Type} (name : String) (entries : List (String × α)) : List α :=
  (entries.filter fun entry => entry.1 == name).map Prod.snd

/-- Entries whose keys are texts. -/
def keyed (entries : List (String × Value)) : List (Value × Value) :=
  entries.map fun entry => (.text entry.1, entry.2)

section Under

variable {α : Type}

lemma valuesUnder_cons (name key : String) (value : α) (entries : List (String × α)) :
    valuesUnder name ((key, value) :: entries) =
      if key = name then value :: valuesUnder name entries else valuesUnder name entries := by
  by_cases hkey : key = name <;> simp [valuesUnder, hkey]

/-- Nothing stands under a name that is no key. -/
lemma valuesUnder_eq_nil {name : String} {entries : List (String × α)}
    (h : name ∉ entries.map Prod.fst) : valuesUnder name entries = [] := by
  rw [valuesUnder, List.map_eq_nil_iff, List.filter_eq_nil_iff]
  intro entry hentry hname
  exact h (List.mem_map.mpr ⟨entry, hentry, eq_of_beq hname⟩)

/-- What stands under a name in one place stands in the same place under it in another, if the
entries match. -/
lemma forall₂_valuesUnder {β : Type} (R : α → β → Prop) {entries : List (String × α)}
    {others : List (String × β)}
    (h : List.Forall₂ (fun entry other => entry.1 = other.1 ∧ R entry.2 other.2) entries others)
    (name : String) : List.Forall₂ R (valuesUnder name entries) (valuesUnder name others) := by
  induction h with
  | nil => exact .nil
  | @cons entry other _ _ hentry _ ih =>
    obtain ⟨key, value⟩ := entry
    obtain ⟨key, value⟩ := other
    obtain ⟨rfl, hvalue⟩ := hentry
    rw [valuesUnder_cons, valuesUnder_cons]
    split_ifs
    · exact .cons hvalue ih
    · exact ih

/-- Under names that differ stand the items of a list, one under each. -/
lemma forall_valuesUnder_zip {β : Type} {R : β → α → Prop} {name : β → String} {args : List β}
    {items : List α} (hlength : args.length = items.length) (hnodup : (args.map name).Nodup) :
    (∀ a ∈ args, ∃ item, valuesUnder (name a) ((args.map name).zip items) = [item] ∧ R a item) ↔
      List.Forall₂ R args items := by
  induction args generalizing items with
  | nil =>
    obtain rfl := List.length_eq_zero_iff.mp hlength.symm
    simp
  | cons a args ih =>
    obtain ⟨item, items, rfl⟩ := List.exists_cons_of_length_eq_add_one hlength.symm
    rw [List.map_cons, List.nodup_cons] at hnodup
    have hnames : ((args.map name).zip items).map Prod.fst = args.map name :=
      List.map_fst_zip (by simpa using Nat.le_of_eq hlength)
    have hfresh : name a ∉ ((args.map name).zip items).map Prod.fst := by
      rw [hnames]
      exact hnodup.1
    have hothers : ∀ b ∈ args, name a ≠ name b := fun b hb heq =>
      hnodup.1 (heq ▸ List.mem_map_of_mem hb)
    rw [List.forall₂_cons, ← ih (Nat.succ.inj hlength) hnodup.2]
    simp only [List.map_cons, List.zip_cons_cons, valuesUnder_cons, List.forall_mem_cons, if_true,
      valuesUnder_eq_nil hfresh]
    refine and_congr (by simp) (forall₂_congr fun b hb => ?_)
    rw [if_neg (hothers b hb)]

end Under

namespace Op

/-! ## Arguments of fields -/

/-- The argument that a value stands for in the place of a given field. -/
def Field.argument? : Field → Value → Option Argument
  | .text, value => (readText value).toOption.map .text
  | .offset, value | .start, value | .stop, value | .line, value =>
    (readNumber value).toOption.map .number

/-- Whether an argument is of the kind that a field takes. -/
def Field.Takes : Field → Argument → Prop
  | .text, .text _ => True
  | .text, .number _ => False
  | _, .number _ => True
  | _, .text _ => False

lemma takes_of_mem {op : Op} {argument : Field × Argument} (h : argument ∈ op.arguments) :
    argument.1.Takes argument.2 := by
  cases op <;>
  · simp only [arguments, List.mem_cons, List.not_mem_nil, or_false] at h
    rcases h with rfl | rfl | rfl <;> trivial

/-- A value has to stand for an argument, and the field has to take it. -/
lemma Field.argument?_eq_some_iff {field : Field} {value : Value} {argument : Argument} :
    field.argument? value = some argument ↔
      field.Takes argument ∧ value.argument? = some argument := by
  cases value with
  | signed number =>
    by_cases sign : 0 ≤ number <;> cases field <;> cases argument <;>
      simp [argument?, Takes, readNumber, readText, Value.argument?, Except.toOption, sign]
  | _ =>
    cases field <;> cases argument <;>
      simp [argument?, Takes, readNumber, readText, Value.argument?, Except.toOption]

/-- No two fields share a name. -/
lemma Field.name_injective : Function.Injective Field.name := by
  intro field other
  cases field <;> cases other <;> decide

/-- No two kinds of operations share a name in scripts. -/
lemma Kind.tag_injective : Function.Injective Kind.tag := fun kind other h =>
  Option.some.inj (by rw [← ofTag?_tag kind, h, ofTag?_tag])

lemma Kind.nodup_fields (kind : Kind) : kind.fields.Nodup := by
  cases kind <;> decide

/-- No field has the name under which the name of the operation stands. -/
lemma Field.name_ne_opKey (field : Field) : field.name ≠ opKey := by
  cases field <;> decide

/-- A key that is a name stands for the field of that name, or for none. -/
lemma fieldOfKey_text (kind : Kind) (key : String) :
    (fieldOfKey kind (.text key) = .ok none ∧ ∀ field ∈ kind.fields, key ≠ field.name) ∨
      ∃ field ∈ kind.fields, key = field.name ∧ fieldOfKey kind (.text key) = .ok (some field) := by
  cases hfind : kind.fields.find? fun field => field.name == key with
  | none =>
    refine .inl ⟨by rw [fieldOfKey, hfind], fun field hfield heq => ?_⟩
    exact List.find?_eq_none.mp hfind field hfield (beq_iff_eq.mpr heq.symm)
  | some field =>
    refine .inr ⟨field, List.mem_of_find?_eq_some hfind, ?_, by rw [fieldOfKey, hfind]⟩
    exact (eq_of_beq (List.find?_some (p := fun field : Field => field.name == key) hfind)).symm

lemma fieldOfKey_name {kind : Kind} {field : Field} (h : field ∈ kind.fields) :
    fieldOfKey kind (.text field.name) = .ok (some field) := by
  obtain ⟨-, hother⟩ | ⟨found, -, hname, hfound⟩ := fieldOfKey_text kind field.name
  · exact absurd rfl (hother field h)
  · rw [hfound, Field.name_injective hname]

/-! ## Slots -/

/-- What is in the slot of a field, as a list. -/
def Slots.held (slots : Slots) (field : Field) : List (Option Argument) :=
  (slots.get? field).toList.map some

lemma Slots.held_empty (field : Field) : ({} : Slots).held field = [] := by
  rw [held, get?_empty]
  rfl

lemma Slots.held_eq_singleton_iff {slots : Slots} {field : Field} {argument : Argument} :
    slots.held field = [some argument] ↔ slots.get? field = some argument := by
  cases h : slots.get? field <;> simp [held, h]

/-- There is at most one argument in a slot. -/
lemma Slots.held_eq_append_cons {slots slots' : Slots} {field : Field} {value : Option Argument}
    {more : List (Option Argument)} (h : slots'.held field = slots.held field ++ value :: more) :
    slots.get? field = none ∧ ∃ argument, value = some argument := by
  rw [held, held] at h
  cases hget : slots.get? field with
  | some other => cases hget' : slots'.get? field <;> simp [hget, hget'] at h
  | none =>
    cases hget' : slots'.get? field with
    | none => simp [hget, hget'] at h
    | some argument =>
      rw [hget, hget'] at h
      exact ⟨rfl, argument, (List.cons.inj h).1.symm⟩

/-- Slots are what they hold for each field. -/
lemma Slots.ext_held {slots other : Slots} (h : ∀ field, slots.held field = other.held field) :
    slots = other := by
  have hget : ∀ field, slots.get? field = other.get? field := by
    intro field
    ext argument
    rw [← held_eq_singleton_iff, ← held_eq_singleton_iff, h field]
  have hnumber : Function.Injective (Option.map Argument.number) :=
    Option.map_injective fun _ _ heq => Argument.number.inj heq
  have htext : Function.Injective (Option.map Argument.text) :=
    Option.map_injective fun _ _ heq => Argument.text.inj heq
  obtain ⟨offset, start, stop, line, text⟩ := slots
  obtain rfl := hnumber (hget .offset)
  obtain rfl := hnumber (hget .start)
  obtain rfl := hnumber (hget .stop)
  obtain rfl := hnumber (hget .line)
  obtain rfl := htext (hget .text)
  rfl

/-- **A value goes into the slot of its field** as the argument that it stands for. -/
lemma Slots.held_of_put {slots slots' : Slots} {field : Field} {value : Value}
    (h : slots.put field value = .ok slots') (other : Field) :
    slots'.held other =
      slots.held other ++ if other = field then [field.argument? value] else [] := by
  cases field <;>
  · obtain ⟨slot, hfill, hslots⟩ := bind_eq_ok_iff.mp h
    obtain ⟨hnone, read, hread, rfl⟩ := fill_eq_ok_iff.mp hfill
    cases hslots
    cases other <;> simp [held, get?, hnone, Field.argument?, hread, Except.toOption]

/-- There is place for a value if the slot of its field is empty. -/
lemma Slots.exists_put {slots : Slots} {field : Field} {value : Value} {argument : Argument}
    (hnone : slots.get? field = none) (hargument : field.argument? value = some argument) :
    ∃ slots', slots.put field value = .ok slots' := by
  cases field
  case text =>
    have hslot : slots.text = none := Option.map_eq_none_iff.mp hnone
    cases hread : readText value with
    | error cause => simp [Field.argument?, hread, Except.toOption] at hargument
    | ok text => exact ⟨_, by rw [put, hslot, hread]; rfl⟩
  all_goals
    have hslot := Option.map_eq_none_iff.mp hnone
    cases hread : readNumber value with
    | error cause => simp [Field.argument?, hread, Except.toOption] at hargument
    | ok number => exact ⟨_, by rw [put, hslot, hread]; rfl⟩

/-! ## Entries of maps -/

/-- What the entries under the name of a field stand for in its place. -/
def argumentsUnder (entries : List (String × Value)) (field : Field) : List (Option Argument) :=
  (valuesUnder field.name entries).map field.argument?

/-- The same, but nothing for a field that a kind of operation does not have. -/
def argumentsFor (kind : Kind) (entries : List (String × Value)) (field : Field) :
    List (Option Argument) :=
  if field ∈ kind.fields then argumentsUnder entries field else []

lemma argumentsFor_nil (kind : Kind) (field : Field) : argumentsFor kind [] field = [] := by
  rw [argumentsFor]
  split_ifs <;> rfl

section Entry

variable {kind : Kind} {value : Value} {entries : List (String × Value)}

/-- An entry under another name does not matter. -/
lemma argumentsFor_cons_other {key : String} (h : ∀ field ∈ kind.fields, key ≠ field.name)
    (field : Field) :
    argumentsFor kind ((key, value) :: entries) field = argumentsFor kind entries field := by
  rw [argumentsFor, argumentsFor]
  split_ifs with hfield
  · rw [argumentsUnder, argumentsUnder, valuesUnder_cons, if_neg (h field hfield)]
  · rfl

/-- An entry under the name of a field matters for this field alone. -/
lemma argumentsFor_cons_own {own : Field} (h : own ∈ kind.fields) (field : Field) :
    argumentsFor kind ((own.name, value) :: entries) field =
      (if field = own then [own.argument? value] else []) ++ argumentsFor kind entries field := by
  by_cases heq : field = own
  · subst heq
    simp [argumentsFor, argumentsUnder, valuesUnder_cons, h]
  · have hname : own.name ≠ field.name := fun hname => heq (Field.name_injective hname).symm
    simp [argumentsFor, argumentsUnder, valuesUnder_cons, heq, hname]

end Entry

/-- **After the entries of a map**, each argument of the operation is in its slot, and nothing else
has changed. -/
lemma readEntries_keyed_iff {kind : Kind} {entries : List (String × Value)} {slots slots' : Slots} :
    readEntries kind slots (keyed entries) = .ok slots' ↔
      ∀ field, slots'.held field = slots.held field ++ argumentsFor kind entries field := by
  induction entries generalizing slots with
  | nil =>
    simp only [argumentsFor_nil, List.append_nil]
    change Except.ok slots = .ok slots' ↔ _
    rw [Except.ok.injEq]
    exact ⟨fun heq _ => heq ▸ rfl, fun heq => Slots.ext_held fun field => (heq field).symm⟩
  | cons entry entries ih =>
    obtain ⟨key, value⟩ := entry
    change (fieldOfKey kind (.text key) >>= _) = _ ↔ _
    obtain ⟨hkey, hother⟩ | ⟨own, hown, rfl, hkey⟩ := fieldOfKey_text kind key
    · rw [hkey]
      simp only [argumentsFor_cons_other hother]
      exact ih
    · rw [hkey]
      simp only [argumentsFor_cons_own hown, ← List.append_assoc]
      change (slots.put own value >>= fun next => readEntries kind next (keyed entries)) = _ ↔ _
      constructor
      · intro h field
        obtain ⟨next, hput, hnext⟩ := bind_eq_ok_iff.mp h
        rw [ih.mp hnext, Slots.held_of_put hput]
      · intro h
        have hheld := h own
        rw [if_pos rfl, List.append_assoc, List.singleton_append] at hheld
        obtain ⟨hnone, argument, hargument⟩ := Slots.held_eq_append_cons hheld
        obtain ⟨next, hput⟩ := Slots.exists_put hnone hargument
        refine bind_eq_ok_iff.mpr ⟨next, hput, ih.mpr fun field => ?_⟩
        rw [h, Slots.held_of_put hput]

/-- Which arguments an operation gets from its slots. -/
lemma ofSlots_eq_ok_iff {slots : Slots} {kind : Kind} {op : Op} :
    ofSlots slots kind = .ok op ↔
      op.kind = kind ∧ ∀ argument ∈ op.arguments, slots.get? argument.1 = some argument.2 := by
  refine ⟨get?_of_ofSlots, ?_⟩
  rintro ⟨rfl, hget⟩
  cases op <;>
    simp_all [arguments, Slots.get?, Op.kind, ofSlots, need, pure, Except.pure, bind, Except.bind]

lemma mem_fields {op : Op} {argument : Field × Argument} (h : argument ∈ op.arguments) :
    argument.1 ∈ op.kind.fields :=
  map_fst_arguments op ▸ List.mem_map_of_mem h

/-- **A map is an operation** if it has each of its arguments once, whatever else is in it and in
whatever order. -/
theorem ofMap_keyed_iff {kind : Kind} {entries : List (String × Value)} {op : Op} :
    ofMap kind (keyed entries) = .ok op ↔
      op.kind = kind ∧ ∀ argument ∈ op.arguments,
        argumentsUnder entries argument.1 = [some argument.2] := by
  have hiff : ∀ entries, ofMap kind (keyed entries) = .ok op ↔ op.kind = kind ∧ ∃ slots : Slots,
      (∀ field, slots.held field = argumentsFor kind entries field) ∧
        ∀ argument ∈ op.arguments, slots.held argument.1 = [some argument.2] := by
    intro entries
    simp only [ofMap, bind_eq_ok_iff, readEntries_keyed_iff, ofSlots_eq_ok_iff, Slots.held_empty,
      List.nil_append, Slots.held_eq_singleton_iff]
    exact ⟨fun ⟨slots, hslots, hkind, hget⟩ => ⟨hkind, slots, hslots, hget⟩,
      fun ⟨hkind, slots, hslots, hget⟩ => ⟨slots, hslots, hkind, hget⟩⟩
  refine (hiff entries).trans (and_congr_right ?_)
  rintro rfl
  constructor
  · rintro ⟨slots, hslots, hheld⟩ argument hmem
    rw [← hheld argument hmem, hslots, argumentsFor, if_pos (mem_fields hmem)]
  · intro hunder
    -- The slots are those that the arguments of the operation itself fill.
    have hown := ofMap_arguments op
    obtain ⟨-, slots, hslots, hheld⟩ :=
      (hiff (op.arguments.map fun argument => (argument.1.name, argument.2.toValue))).mp
        (by rwa [keyed, List.map_map])
    refine ⟨slots, fun field => ?_, hheld⟩
    by_cases hfield : field ∈ op.kind.fields
    · rw [← map_fst_arguments] at hfield
      obtain ⟨argument, hmem, rfl⟩ := List.mem_map.mp hfield
      rw [hheld argument hmem, argumentsFor, if_pos (mem_fields hmem), hunder argument hmem]
    · rw [hslots, argumentsFor, argumentsFor, if_neg hfield, if_neg hfield]

/-! ## Items of lists -/

/-- **The items of a list are read as the entries of a map** under the names of the fields. -/
lemma readItems_eq {kind : Kind} {fields : List Field} {items : List Value} {slots : Slots}
    (hfields : ∀ field ∈ fields, field ∈ kind.fields) (hlength : fields.length ≤ items.length) :
    readItems kind slots fields items =
      readEntries kind slots (keyed ((fields.map Field.name).zip items)) := by
  induction fields generalizing slots items with
  | nil => rfl
  | cons field fields ih =>
    obtain ⟨item, items, rfl⟩ := List.exists_cons_of_length_pos (Nat.zero_lt_of_lt hlength)
    rw [List.forall_mem_cons] at hfields
    change _ = fieldOfKey kind (.text field.name) >>= _
    rw [fieldOfKey_name hfields.1]
    change (slots.put field item >>= _) = slots.put field item >>= _
    exact congrArg _ (funext fun next => ih hfields.2 (Nat.le_of_succ_le_succ hlength))

/-- There have to be as many items as fields. -/
lemma length_le_of_readItems {kind : Kind} {fields : List Field} {items : List Value}
    {slots slots' : Slots} (h : readItems kind slots fields items = .ok slots') :
    fields.length ≤ items.length := by
  induction fields generalizing slots items with
  | nil => exact Nat.zero_le _
  | cons field fields ih =>
    cases items with
    | nil => cases h
    | cons item items =>
      obtain ⟨next, -, hnext⟩ := bind_eq_ok_iff.mp h
      exact Nat.succ_le_succ (ih hnext)

lemma length_eq_of_ofList {kind : Kind} {items : List Value} {op : Op}
    (h : ofList kind items = .ok op) : kind.fields.length = items.length := by
  obtain ⟨slots, hread, hrest⟩ := bind_eq_ok_iff.mp h
  dsimp only at hrest
  split at hrest
  · cases hrest
  · rename_i hlength
    exact Nat.le_antisymm (length_le_of_readItems hread) (Nat.not_lt.mp hlength)

/-- A list with as many items as the operation has arguments is read as the map that has them under
the names of the arguments. -/
lemma ofList_eq_ofMap {kind : Kind} {items : List Value}
    (hlength : kind.fields.length = items.length) :
    ofList kind items = ofMap kind (keyed ((kind.fields.map Field.name).zip items)) := by
  rw [ofList, readItems_eq (fun _ => id) (Nat.le_of_eq hlength), ofMap]
  refine congrArg _ (funext fun slots => ?_)
  rw [if_neg (Nat.not_lt.mpr (Nat.le_of_eq hlength.symm))]

/-- **A list is an operation** if its items are the arguments in the order of writing. -/
theorem ofList_eq_ok_iff {kind : Kind} {items : List Value} {op : Op} :
    ofList kind items = .ok op ↔ op.kind = kind ∧
      List.Forall₂ (fun argument item => argument.1.argument? item = some argument.2)
        op.arguments items := by
  have hnames :
      op.kind.fields.map Field.name = op.arguments.map fun argument => argument.1.name := by
    rw [← map_fst_arguments, List.map_map]
    rfl
  have hnodup : (op.arguments.map fun argument => argument.1.name).Nodup :=
    hnames ▸ op.kind.nodup_fields.map Field.name_injective
  -- As many items as fields, the map of the items under their names decides.
  have hiff : op.kind.fields.length = items.length →
      (ofList op.kind items = .ok op ↔ List.Forall₂
        (fun argument item => argument.1.argument? item = some argument.2) op.arguments items) := by
    intro hlength
    rw [ofList_eq_ofMap hlength, ofMap_keyed_iff, hnames,
      ← forall_valuesUnder_zip (by rwa [← map_fst_arguments, List.length_map] at hlength) hnodup]
    simp only [true_and, argumentsUnder, List.map_eq_singleton_iff]
  constructor
  · intro h
    obtain rfl := (exists_item_of_ofList h).1
    exact ⟨rfl, (hiff (length_eq_of_ofList h)).mp h⟩
  · rintro ⟨rfl, h⟩
    refine (hiff ?_).mpr h
    rw [← map_fst_arguments, List.length_map, h.length_eq]

end Op

end EditBatch
