import EditBatch.Proofs.FileSystem
import EditBatch.Value
set_option autoImplicit false

/-!
# Arguments read from data

An operation takes its arguments from the entries of a map or the items of a list. A text comes from
a text and an offset from a whole number; neither is ever made out of the other.

## Main definitions

* `EditBatch.Value.argument?` — the argument that a value stands for.
* `EditBatch.Op.Slots.get?` — the argument read so far for a field.

## Main results

* `EditBatch.Op.ofMap_arguments` — the arguments of an operation, under their names, give the
  operation back.
* `EditBatch.Op.exists_entry_of_ofMap`, `EditBatch.Op.exists_item_of_ofList` — every argument of an
  operation that is read is what one of the values stands for.
-/

namespace EditBatch

/-- The argument that a value stands for: a text, or a whole number without a minus sign. -/
def Value.argument? : Value → Option Op.Argument
  | text value => some (.text value)
  | unsigned value => some (.number value)
  | signed value => if 0 ≤ value then some (.number (UInt64.ofNat value.toNat)) else none
  | _ => none

namespace Op

/-- The value of an argument. -/
def Argument.toValue : Argument → Value
  | number value => .unsigned value
  | text value => .text value

/-- **The arguments of an operation give the operation back**, each under its name. -/
theorem ofMap_arguments (op : Op) :
    ofMap op.kind (op.arguments.map fun argument =>
      (.text argument.1.name, argument.2.toValue)) = .ok op := by
  cases op <;> rfl

/-- The argument read so far for a field. -/
def Slots.get? (slots : Slots) : Field → Option Argument
  | .offset => slots.offset.map .number
  | .start => slots.start.map .number
  | .stop => slots.stop.map .number
  | .line => slots.line.map .number
  | .text => slots.text.map .text

lemma argument?_of_readNumber {value : Value} {number : UInt64}
    (h : readNumber value = .ok number) : value.argument? = some (.number number) := by
  cases value with
  | unsigned n => cases h; rfl
  | signed n =>
    rw [readNumber] at h
    split at h
    · rename_i hsign
      cases h
      exact if_pos hsign
    · cases h
  | _ => cases h

lemma argument?_of_readText {value : Value} {text : String} (h : readText value = .ok text) :
    value.argument? = some (.text text) := by
  cases value with
  | text t => cases h; rfl
  | _ => cases h

/-- An empty slot is filled with what was read. -/
lemma fill_eq_ok_iff {α : Type} {field : Field} {slot slot' : Option α}
    {value : Except ShapeError α} :
    fill field slot value = .ok slot' ↔ slot = none ∧ ∃ a, value = .ok a ∧ slot' = some a := by
  cases slot with
  | some a => simp [fill]
  | none => cases value <;> simp [fill, Except.map, eq_comm]

/-- **A value fills its own slot with what it stands for**, and no other. -/
lemma Slots.get?_of_put {slots slots' : Slots} {field : Field} {value : Value}
    (h : slots.put field value = .ok slots') (other : Field) :
    slots'.get? other = if other = field then value.argument? else slots.get? other := by
  cases field
  case text =>
    obtain ⟨slot, hfill, hslots⟩ := bind_eq_ok_iff.mp h
    obtain ⟨-, text, hread, rfl⟩ := fill_eq_ok_iff.mp hfill
    cases hslots
    cases other <;> simp [get?, argument?_of_readText hread]
  all_goals
    obtain ⟨slot, hfill, hslots⟩ := bind_eq_ok_iff.mp h
    obtain ⟨-, number, hread, rfl⟩ := fill_eq_ok_iff.mp hfill
    cases hslots
    cases other <;> simp [get?, argument?_of_readNumber hread]

lemma need_eq_ok_iff {α : Type} {field : Field} {slot : Option α} {a : α} :
    need field slot = .ok a ↔ slot = some a := by
  cases slot <;> simp [need]

/-- **An operation has the arguments in the slots.** -/
lemma get?_of_ofSlots {slots : Slots} {kind : Kind} {op : Op} (h : ofSlots slots kind = .ok op) :
    op.kind = kind ∧ ∀ argument ∈ op.arguments, slots.get? argument.1 = some argument.2 := by
  cases kind <;>
    simp only [ofSlots, bind_eq_ok_iff, need_eq_ok_iff, pure, Except.pure, Except.ok.injEq] at h
  case insert | deleteText =>
    obtain ⟨offset, hoffset, text, htext, rfl⟩ := h
    exact ⟨rfl, by simp [arguments, Slots.get?, hoffset, htext]⟩
  case delete =>
    obtain ⟨start, hstart, stop, hstop, rfl⟩ := h
    exact ⟨rfl, by simp [arguments, Slots.get?, hstart, hstop]⟩
  case replace =>
    obtain ⟨start, hstart, stop, hstop, text, htext, rfl⟩ := h
    exact ⟨rfl, by simp [arguments, Slots.get?, hstart, hstop, htext]⟩
  case moveCaret | deleteLine | deleteLineAt =>
    obtain ⟨number, hnumber, rfl⟩ := h
    exact ⟨rfl, by simp [arguments, Slots.get?, hnumber]⟩

/-- What is in the slots after the entries was there before, or is what one of them stands for. -/
lemma get?_of_readEntries {kind : Kind} {entries : List (Value × Value)} {field : Field}
    {argument : Argument} {slots slots' : Slots} (h : readEntries kind slots entries = .ok slots')
    (hget : slots'.get? field = some argument) :
    slots.get? field = some argument ∨ ∃ entry ∈ entries,
      fieldOfKey kind entry.1 = .ok (some field) ∧ entry.2.argument? = some argument := by
  induction entries generalizing slots with
  | nil =>
    cases h
    exact .inl hget
  | cons entry rest ih =>
    obtain ⟨key, value⟩ := entry
    obtain ⟨found, hkey, hrest⟩ := bind_eq_ok_iff.mp h
    cases found with
    | none =>
      obtain hslots | ⟨other, hmem, hother⟩ := ih hrest
      · exact .inl hslots
      · exact .inr ⟨other, List.mem_cons_of_mem _ hmem, hother⟩
    | some own =>
      obtain ⟨next, hput, hnext⟩ := bind_eq_ok_iff.mp hrest
      obtain hslots | ⟨other, hmem, hother⟩ := ih hnext
      · rw [Slots.get?_of_put hput] at hslots
        split at hslots
        · rename_i hown
          exact .inr ⟨(key, value), List.mem_cons_self, hown ▸ hkey, hslots⟩
        · exact .inl hslots
      · exact .inr ⟨other, List.mem_cons_of_mem _ hmem, hother⟩

/-- What is in the slots after the items was there before, or is what one of them stands for. -/
lemma get?_of_readItems {kind : Kind} {fields : List Field} {items : List Value} {field : Field}
    {argument : Argument} {slots slots' : Slots}
    (h : readItems kind slots fields items = .ok slots')
    (hget : slots'.get? field = some argument) :
    slots.get? field = some argument ∨ ∃ (place : ℕ) (item : Value),
      fields[place]? = some field ∧ items[place]? = some item ∧ item.argument? = some argument := by
  induction fields generalizing slots items with
  | nil =>
    cases h
    exact .inl hget
  | cons own fields ih =>
    cases items with
    | nil => cases h
    | cons value items =>
      obtain ⟨next, hput, hnext⟩ := bind_eq_ok_iff.mp h
      obtain hslots | ⟨place, hitem⟩ := ih hnext
      · rw [Slots.get?_of_put hput] at hslots
        split at hslots
        · rename_i hown
          exact .inr ⟨0, value, congrArg some hown.symm, rfl, hslots⟩
        · exact .inl hslots
      · exact .inr ⟨place + 1, hitem⟩

lemma Slots.get?_empty (field : Field) : ({} : Slots).get? field = none := by
  cases field <;> rfl

/-- **Every argument of an operation read from a map is what an entry under its key stands for.** -/
theorem exists_entry_of_ofMap {kind : Kind} {entries : List (Value × Value)} {op : Op}
    (h : ofMap kind entries = .ok op) :
    op.kind = kind ∧ ∀ argument ∈ op.arguments, ∃ entry ∈ entries,
      fieldOfKey kind entry.1 = .ok (some argument.1) ∧
        entry.2.argument? = some argument.2 := by
  obtain ⟨slots, hread, hslots⟩ := bind_eq_ok_iff.mp h
  obtain ⟨hkind, hget⟩ := get?_of_ofSlots hslots
  refine ⟨hkind, fun argument hmem => ?_⟩
  obtain hempty | hentry := get?_of_readEntries hread (hget argument hmem)
  · rw [Slots.get?_empty] at hempty
    cases hempty
  · exact hentry

/-- **Every argument of an operation read from a list is what the item in its place stands for.** -/
theorem exists_item_of_ofList {kind : Kind} {items : List Value} {op : Op}
    (h : ofList kind items = .ok op) :
    op.kind = kind ∧ ∀ argument ∈ op.arguments, ∃ (place : ℕ) (item : Value),
      kind.fields[place]? = some argument.1 ∧ items[place]? = some item ∧
        item.argument? = some argument.2 := by
  obtain ⟨slots, hread, hrest⟩ := bind_eq_ok_iff.mp h
  have hslots : ofSlots slots kind = .ok op := by
    dsimp only at hrest
    split at hrest
    · cases hrest
    · exact hrest
  obtain ⟨hkind, hget⟩ := get?_of_ofSlots hslots
  refine ⟨hkind, fun argument hmem => ?_⟩
  obtain hempty | hitem := get?_of_readItems hread (hget argument hmem)
  · rw [Slots.get?_empty] at hempty
    cases hempty
  · exact hitem

end Op

end EditBatch
