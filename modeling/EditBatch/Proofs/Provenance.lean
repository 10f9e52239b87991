import EditBatch.Proofs.Layout
import EditBatch.Proofs.Progress
import Mathlib.Order.Basic
set_option autoImplicit false

/-!
# Where the characters of an edited document come from

The edits of a batch act on a layout of origins as they act on a document: what the document
shows are the characters of the layout, and where the offset map takes an offset is its place in
the layout. The layout knows neither characters nor the size of the document.

## Main definitions

* `EditBatch.Origin` — a character of the unedited document or of an inserted text.
* `EditBatch.Batch.layout` — the origins in each gap, just before an edit.
* `EditBatch.Batch.origins` — the origins of all characters, just before an edit.
* `EditBatch.Batch.source?` — the character of an origin.
* `EditBatch.Edit.Overruns` — edits that reach beyond a document.
* `EditBatch.Edit.Fits` — edits whose offsets never come to the greatest offset.

## Main results

* `EditBatch.Batch.toNat_apply_before` — the offset map follows the layout.
* `EditBatch.Batch.exists_run_first` — while no edit overruns, the edits are made, and the
  document follows the origins and the layout.
* `EditBatch.Batch.exists_apply` — so it is with the whole batch if it lies inside the document.
-/

namespace EditBatch

open Document

/-- Where a character of an edited document comes from. -/
inductive Origin where
  /-- The character behind an offset of the unedited document. -/
  | original (offset : ℕ)
  /-- A character of the text of an edit, both counted from zero. -/
  | inserted (number index : ℕ)
  deriving DecidableEq, Repr

/-- The origins of a text of the edit with a given number. -/
def Origin.ofText (number length : ℕ) : List Origin :=
  (List.range length).map (Origin.inserted number)

@[simp] lemma Origin.length_ofText (number length : ℕ) :
    (Origin.ofText number length).length = length := by
  simp [Origin.ofText]

namespace Layout

/-- Each character in the gap behind its offset. There is one for every offset, so that the
layout serves documents of any size. -/
def unedited : Layout Origin
  | 0 => []
  | offset + 1 => [.original offset]

lemma front_unedited (offset : ℕ) :
    unedited.front offset = (List.range offset).map Origin.original := by
  induction offset with
  | zero => rfl
  | succ offset ih => simp [front, ih, unedited, List.range_succ]

lemma place_unedited (offset : ℕ) : unedited.place offset = offset := by
  simp [place, front_unedited]

/-- The layout after the edit with a given number. -/
def edit (layout : Layout Origin) (number : ℕ) : Edit → Layout Origin
  | .insertion offset text => layout.insert offset.toNat (Origin.ofText number text.length)
  | .deletion start stop => layout.delete start.toNat stop.toNat

end Layout

namespace Edit

/-- Whether an edit has something to do beyond a document of a given size. -/
def Overruns (size : ℕ) : Edit → Prop
  | insertion offset text => text ≠ "" ∧ size < offset.toNat
  | deletion start stop => start < stop ∧ size < stop.toNat

instance (size : ℕ) (edit : Edit) : Decidable (edit.Overruns size) := by
  cases edit <;> unfold Overruns <;> infer_instance

/-- Whether the offsets of an edit can move forward by a number of characters. -/
def Fits (budget : ℕ) (edit : Edit) : Prop :=
  edit.start.toNat + budget ≤ Offset.greatest.toNat ∧
    edit.stop.toNat + budget ≤ Offset.greatest.toNat

lemma Fits.mono {edit : Edit} {budget smaller : ℕ} (h : edit.Fits budget)
    (hle : smaller ≤ budget) : edit.Fits smaller := by
  obtain ⟨hstart, hstop⟩ := h
  exact ⟨by omega, by omega⟩

instance (budget : ℕ) (edit : Edit) : Decidable (edit.Fits budget) := by
  unfold Fits
  infer_instance

/-- Whether an edit starts before it ends, as every recorded edit does. -/
def Ordered (edit : Edit) : Prop := edit.start ≤ edit.stop

/-- Whether an edit ends inside a document of a given size. -/
def Within (size : ℕ) (edit : Edit) : Prop := edit.stop.toNat ≤ size

instance (edit : Edit) : Decidable edit.Ordered := by
  unfold Ordered
  infer_instance

instance (size : ℕ) (edit : Edit) : Decidable (edit.Within size) := by
  unfold Within
  infer_instance

lemma Within.not_overruns {size : ℕ} {edit : Edit} (h : edit.Within size) :
    ¬ edit.Overruns size := by
  cases edit with
  | insertion offset text =>
    rintro ⟨-, hover⟩
    exact Nat.not_lt_of_le h hover
  | deletion start stop =>
    rintro ⟨-, hover⟩
    exact Nat.not_lt_of_le h hover

lemma Within.start_le {size : ℕ} {edit : Edit} (h : edit.Within size) (order : edit.Ordered) :
    edit.start.toNat ≤ size :=
  (UInt64.le_iff_toNat_le.mp order).trans h

lemma Within.fits {size budget : ℕ} {edit : Edit} (h : edit.Within size)
    (order : edit.Ordered) (room : size + budget ≤ Offset.greatest.toNat) :
    edit.Fits budget := by
  rw [Within] at h
  rw [Ordered, UInt64.le_iff_toNat_le] at order
  exact ⟨by omega, by omega⟩

end Edit

namespace Batch

variable (batch : Batch)

/-- The layout just before the edit with a given number. -/
def layout : ℕ → Layout Origin
  | 0 => .unedited
  | number + 1 =>
    match batch.edits[number]? with
    | some edit => (layout number).edit number edit
    | none => layout number

/-- The character of an origin, in a document with a given text. -/
def source? (text : List Char) : Origin → Option Char
  | .original offset => text[offset]?
  | .inserted number index => do (← batch.edits[number]?).text.toList[index]?

/-- The origins of what a document of a given size shows just before an edit: its characters,
moved as the edits move characters. -/
def origins (size : ℕ) : ℕ → List Origin
  | 0 => (List.range size).map .original
  | number + 1 =>
    match batch.edits[number]? with
    | some edit =>
      (batch.before number).splice edit (origins size number)
        (Origin.ofText number edit.text.length)
    | none => origins size number

lemma origins_succ (size : ℕ) {number : ℕ} {edit : Edit} (h : batch.edits[number]? = some edit) :
    batch.origins size (number + 1) =
      (batch.before number).splice edit (batch.origins size number)
        (Origin.ofText number edit.text.length) := by
  rw [origins, h]

lemma layout_succ {number : ℕ} {edit : Edit} (h : batch.edits[number]? = some edit) :
    batch.layout (number + 1) = (batch.layout number).edit number edit := by
  rw [layout, h]

/-! ## The offset map -/

/-- An offset moves forward by no more characters than were put in. -/
lemma place_layout_le {number : ℕ} (hnumber : number ≤ batch.edits.length) (offset : ℕ) :
    (batch.layout number).place offset ≤ offset + insertedLength (batch.first number).edits := by
  induction number with
  | zero => rw [layout, Layout.place_unedited]; exact Nat.le_add_right _ _
  | succ number ih =>
    obtain ⟨edit, h⟩ := batch.exists_edit hnumber
    have hbound := ih (by omega)
    rw [layout_succ batch h, first_succ batch h, insertedLength_append]
    cases edit with
    | insertion place text =>
      rw [Layout.edit, Layout.place_insert, Origin.length_ofText, insertedLength_insertion]
      split_ifs <;> omega
    | deletion start stop =>
      rcases Nat.le_total start.toNat stop.toNat with hle | hge
      · rw [Layout.edit, Layout.place_delete _ hle]
        omega
      · rw [Layout.edit, Layout.delete_of_le _ hge]
        omega

/-- **The offset map follows the layout**: an offset is taken to its place, as long as no offset
comes to the greatest one.

**Proof sketch.** Induction on the number of edits. An insertion moves the offsets whose place is
not in front of its own, and these are the offsets from its seat on
(`Layout.place_lt_place_iff`). A deletion takes from both sides the same formula. -/
theorem toNat_apply_before (fits : ∀ edit ∈ batch.edits, edit.Fits (insertedLength batch.edits))
    {number : ℕ} (hnumber : number ≤ batch.edits.length) (offset : Offset)
    (room : offset.toNat + insertedLength batch.edits ≤ Offset.greatest.toNat) :
    ((batch.before number).map.apply offset).toNat =
      (batch.layout number).place offset.toNat := by
  induction number generalizing offset with
  | zero => rw [layout, Layout.place_unedited]; rfl
  | succ number ih =>
    obtain ⟨edit, h⟩ := batch.exists_edit hnumber
    obtain ⟨hstart, hstop⟩ := fits edit (List.mem_of_getElem? h)
    have ih := ih (by omega)
    rw [layout_succ batch h, before_succ batch h]
    cases edit with
    | insertion place text =>
      have hplace := batch.place_layout_le (show number ≤ batch.edits.length by omega) offset.toNat
      have hbudget := batch.insertedLength_first_le (number + 1)
      rw [first_succ batch h, insertedLength_append, insertedLength_insertion] at hbudget
      have hmoved := ih offset room
      rw [Progress.toNat_apply_next_insertion _ _ _ _ (by omega), hmoved, ih place hstart,
        Layout.edit, Layout.place_insert, Origin.length_ofText]
      simp only [Layout.place_lt_place_iff]
    | deletion start stop =>
      rcases Nat.lt_or_ge start.toNat stop.toNat with hlt | hge
      · rw [Progress.toNat_apply_next_deletion _ (UInt64.le_iff_toNat_le.mpr hlt.le),
          ih offset room, ih start hstart, ih stop hstop, Layout.edit, Layout.place_delete _ hlt.le]
      · rw [Progress.map_next_deletion_of_le _ (UInt64.le_iff_toNat_le.mpr hge), ih offset room,
          Layout.edit, Layout.delete_of_le _ hge]

/-- **The caret after an edit** is at the place of the start of the edit. -/
lemma toNat_caret_before (fits : ∀ edit ∈ batch.edits, edit.Fits (insertedLength batch.edits))
    {number : ℕ} {edit : Edit} (h : batch.edits[number]? = some edit) :
    (batch.before (number + 1)).caret.map UInt64.toNat =
      some ((batch.layout (number + 1)).place edit.start.toNat) := by
  have hnumber : number < batch.edits.length := (List.getElem?_eq_some_iff.mp h).1
  obtain ⟨hstart, -⟩ := fits edit (List.mem_of_getElem? h)
  have hplace := batch.toNat_apply_before fits hnumber.le edit.start hstart
  rw [before_succ batch h, layout_succ batch h]
  cases edit with
  | insertion place text =>
    have hbound := batch.place_layout_le hnumber.le place.toNat
    have hbudget := batch.insertedLength_first_le (number + 1)
    have hseat := (batch.layout number).seat_le place.toNat
    rw [first_succ batch h, insertedLength_append, insertedLength_insertion] at hbudget
    simp only [Edit.start] at hstart hplace ⊢
    simp only [Progress.next, Option.map_some, Offset.toNat_advance, hplace, Layout.edit,
      Layout.place_insert, Origin.length_ofText]
    rw [Nat.min_eq_left (by omega), if_neg (by omega)]
  | deletion start stop =>
    simp only [Edit.start] at hplace ⊢
    simp only [Progress.next, Option.map_some, hplace, Layout.edit]
    rcases Nat.le_total start.toNat stop.toNat with hle | hge
    · rw [Layout.place_delete _ hle]
      congr 1
      omega
    · rw [Layout.delete_of_le _ hge]

/-! ## The document -/

/-- Gaps beyond a document keep their characters while no edit overruns it. -/
lemma layout_of_le {size number offset : ℕ} (hnumber : number ≤ batch.edits.length)
    (h : size ≤ offset) (inside : ∀ edit ∈ (batch.first number).edits, ¬ edit.Overruns size) :
    batch.layout number (offset + 1) = [.original offset] := by
  induction number with
  | zero => rfl
  | succ number ih =>
    obtain ⟨edit, hedit⟩ := batch.exists_edit hnumber
    rw [first_succ batch hedit] at inside
    have hlast := inside edit (by simp)
    have hkept := ih (by omega) fun edit hmem => inside edit (List.mem_append_left _ hmem)
    rw [layout_succ batch hedit]
    cases edit with
    | insertion place text =>
      by_cases htext : text = ""
      · simpa [Layout.edit, htext, Origin.ofText] using hkept
      · have hplace : place.toNat ≤ size := by simpa [Edit.Overruns, htext] using hlast
        have hseat := (batch.layout number).seat_le place.toNat
        rw [Layout.edit, Layout.insert, if_neg (by omega), hkept]
    | deletion start stop =>
      rw [Edit.Overruns, UInt64.lt_iff_toNat_lt] at hlast
      rw [Layout.edit, Layout.delete, if_neg (by omega), hkept]

/-- While no edit overruns, an offset beyond the document keeps its distance from the end. -/
lemma place_layout_add {size number : ℕ} (hnumber : number ≤ batch.edits.length)
    (inside : ∀ edit ∈ (batch.first number).edits, ¬ edit.Overruns size) (distance : ℕ) :
    (batch.layout number).place (size + distance) =
      (batch.layout number).place size + distance := by
  induction distance with
  | zero => rfl
  | succ distance ih =>
    rw [← Nat.add_assoc, Layout.place_succ, ih,
      batch.layout_of_le hnumber (Nat.le_add_right size distance) inside]
    rfl

/-- All entries of a list, looked up one by one. -/
lemma map_getElem?_range (text : List Char) :
    (List.range text.length).map (fun index => text[index]?) = text.map some := by
  apply List.ext_getElem?
  intro index
  rcases Nat.lt_or_ge index text.length with h | h
  · simp [h]
  · simp [h]

/-- The characters of a text, read from their origins. -/
lemma map_source?_ofText (text : List Char) {number : ℕ} {edit : Edit}
    (h : batch.edits[number]? = some edit) :
    (Origin.ofText number edit.text.length).map (batch.source? text) =
      edit.text.toList.map some := by
  rw [← map_getElem?_range, String.length_toList, Origin.ofText, List.map_map]
  apply List.map_congr_left
  intro index _
  simp [source?, h]

/-- The characters of a document, read from their origins. -/
lemma map_source?_original (text : List Char) :
    ((List.range text.length).map Origin.original).map (batch.source? text) = text.map some := by
  rw [← map_getElem?_range, List.map_map]
  rfl

/-- **An edit splices the front of a layout** if the offset map follows the layout and the edit
does not overrun. If it has something to do, it ends inside. -/
lemma front_edit {progress : Progress} {edit : Edit} {layout : Layout Origin} {size : ℕ}
    (number : ℕ) (inside : ¬ edit.Overruns size)
    (hstart : (progress.map.apply edit.start).toNat = layout.place edit.start.toNat)
    (hstop : (progress.map.apply edit.stop).toNat = layout.place edit.stop.toNat) :
    (layout.edit number edit).front size =
        progress.splice edit (layout.front size) (Origin.ofText number edit.text.length) ∧
      ((progress.change? edit).isSome →
        (progress.map.apply edit.stop).toNat ≤ layout.place size) := by
  have hempty : edit.text = "" → Origin.ofText number edit.text.length = [] := by
    intro htext
    rw [htext]
    rfl
  rw [hstop]
  cases edit with
  | insertion place text =>
    by_cases htext : text = ""
    · subst htext
      refine ⟨?_, fun hsome => ?_⟩
      · simp [Layout.edit, Origin.ofText, Progress.splice, Progress.change?]
      · simp [Progress.change?] at hsome
    · have hplace : place.toNat ≤ size := by simpa [Edit.Overruns, htext] using inside
      have hseat := (layout.seat_le place.toNat).trans hplace
      refine ⟨?_, fun _ => layout.place_mono hplace⟩
      rw [Progress.splice_eq _ (UInt64.le_refl _) (UInt64.le_refl _) _ hempty, hstart, hstop,
        Layout.edit, Layout.front_insert_of_le _ _ hseat]
      simp only [Edit.start, Edit.stop, Edit.text]
      rw [layout.take_place hplace]
  | deletion start stop =>
    rcases Nat.lt_or_ge start.toNat stop.toNat with hlt | hge
    · have hplace : stop.toNat ≤ size := by
        simpa [Edit.Overruns, UInt64.lt_iff_toNat_lt, hlt] using inside
      have horder : (Edit.deletion start stop).start ≤ (Edit.deletion start stop).stop :=
        UInt64.le_iff_toNat_le.mpr hlt.le
      have hmono : progress.map.apply start ≤ progress.map.apply stop := by
        rw [UInt64.le_iff_toNat_le]
        exact hstart.trans_le ((layout.place_mono hlt.le).trans hstop.ge)
      refine ⟨?_, fun _ => layout.place_mono hplace⟩
      rw [Progress.splice_eq _ horder hmono _ hempty, hstart, hstop,
        Layout.edit, Layout.front_delete_of_le _ hlt.le hplace]
      simp only [Edit.start, Edit.stop, hempty rfl, List.append_nil]
      rw [layout.take_place (hlt.le.trans hplace)]
    · have hnone : progress.change? (.deletion start stop) = none := by
        simp [Progress.change?, UInt64.lt_iff_toNat_lt, Nat.not_lt.mpr hge]
      rw [Layout.edit, Layout.delete_of_le _ hge, Progress.splice, hnone]
      exact ⟨rfl, fun hsome => by cases hsome⟩

variable {D : Type} [Document D] [LawfulDocument D]

/-- A document is as long as the origins of its characters are many. -/
lemma length_eq_of_map_eq {document : D} {source : Origin → Option Char} {origins : List Origin}
    (h : (chars document).map some = origins.map source) : length document = origins.length := by
  rw [LawfulDocument.length_eq, ← List.length_map (f := some), h, List.length_map]

/-- **While no edit overruns, the edits are made**, and the document shows the characters of the
origins, which are those of the layout. -/
theorem exists_run_first (document : D)
    (fits : ∀ edit ∈ batch.edits, edit.Fits (insertedLength batch.edits))
    {number : ℕ} (hnumber : number ≤ batch.edits.length)
    (inside : ∀ edit ∈ (batch.first number).edits, ¬ edit.Overruns (length document)) :
    ∃ left, Progress.run {} document (batch.first number).edits =
        (left, .ok (batch.before number)) ∧
      (chars left).map some =
        (batch.origins (length document) number).map (batch.source? (chars document)) ∧
      batch.origins (length document) number =
        (batch.layout number).front (length document) := by
  induction number with
  | zero =>
    refine ⟨document, rfl, ?_, (Layout.front_unedited _).symm⟩
    rw [origins, LawfulDocument.length_eq, map_source?_original]
  | succ number ih =>
    obtain ⟨edit, h⟩ := batch.exists_edit hnumber
    obtain ⟨hstart, hstop⟩ := fits edit (List.mem_of_getElem? h)
    rw [first_succ batch h] at inside ⊢
    obtain ⟨left, hrun, htext, hlayout⟩ :=
      ih (by omega) fun edit hmem => inside edit (List.mem_append_left _ hmem)
    have hmap := batch.toNat_apply_before fits (show number ≤ batch.edits.length by omega)
    obtain ⟨hfront, hends⟩ :=
      front_edit number (inside edit (by simp)) (hmap _ hstart) (hmap _ hstop)
    have hlength : length left = (batch.layout number).place (length document) := by
      rw [length_eq_of_map_eq htext, hlayout, Layout.place]
    obtain ⟨changed, hperform, hchars⟩ :=
      (batch.before number).exists_perform left edit (by rwa [hlength])
    refine ⟨changed, ?_, ?_, ?_⟩
    · rw [Progress.run_append, hrun]
      simp only [Progress.run_singleton, hperform, before_succ batch h]
    · rw [hchars, Progress.map_splice, htext, ← batch.map_source?_ofText _ h,
        ← Progress.map_splice, ← origins_succ batch _ h]
    · rw [origins_succ batch _ h, layout_succ batch h, hfront, hlayout]

/-- **A batch inside the document is made** if all inserted characters have room. -/
theorem exists_apply (document : D) (ordered : ∀ edit ∈ batch.edits, edit.Ordered)
    (within : ∀ edit ∈ batch.edits, edit.Within (length document))
    (room : length document + insertedLength batch.edits ≤ Offset.greatest.toNat) :
    ∃ final, batch.apply document = (final, .ok (batch.before batch.edits.length).caret) ∧
      (chars final).map some =
        (batch.origins (length document) batch.edits.length).map
          (batch.source? (chars document)) ∧
      batch.origins (length document) batch.edits.length =
        (batch.layout batch.edits.length).front (length document) := by
  have hfits : ∀ edit ∈ batch.edits, edit.Fits (insertedLength batch.edits) :=
    fun edit hmem => (within edit hmem).fits (ordered edit hmem) room
  obtain ⟨final, hrun, htext, hlayout⟩ := batch.exists_run_first document hfits le_rfl (by
    rw [first_length]
    exact fun edit hmem => (within edit hmem).not_overruns)
  refine ⟨final, ?_, htext, hlayout⟩
  rw [first_length] at hrun
  rw [apply, hrun]
  rfl

end Batch

end EditBatch
