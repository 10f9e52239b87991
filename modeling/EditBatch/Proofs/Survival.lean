import EditBatch.Proofs.Gaps
set_option autoImplicit false

/-!
# What survives a batch, and in which order

Survival and order are questions about gaps. The offset map just before an edit tells the gaps of
two offsets apart wherever there is a character between them.

## Main definitions

* `EditBatch.Batch.Swallowed` — inserted texts that a later deletion takes out.
* `EditBatch.Batch.Survival` — which characters survive a batch, where, and in which order.

## Main results

* `EditBatch.Batch.swallowed_iff` — a text is swallowed when its gap is emptied.
* `EditBatch.Batch.apply_survival` — what a batch leaves of a document.
-/

namespace EditBatch

open Document

namespace Batch

variable (batch : Batch)

/-- Whether a later deletion takes out the text of an insertion: seen by the insertion, it starts
in front of the place of the text and ends at the place or behind it. -/
def Swallowed (number : ℕ) (place : Offset) : Prop :=
  ∃ later start stop, number < later ∧ batch.edits[later]? = some (.deletion start stop) ∧
    start < stop ∧ (batch.before number).map.apply start < (batch.before number).map.apply place ∧
    (batch.before number).map.apply place ≤ (batch.before number).map.apply stop

/-- What survives a batch in a document of a given size. The origins are those of the characters
that the document shows in the end. -/
structure Survival (size : ℕ) (origins : List Origin) : Prop where
  /-- No character shows twice. -/
  nodup : origins.Nodup
  /-- A character of the document survives if and only if no deletion covers it. -/
  original_mem_iff (offset : ℕ) : .original offset ∈ origins ↔ offset < size ∧
    ∀ start stop, .deletion start stop ∈ batch.edits →
      ¬ (start.toNat ≤ offset ∧ offset < stop.toNat)
  /-- It then stands where the offset map takes its offset. -/
  getElem?_original (offset : Offset) (h : .original offset.toNat ∈ origins) :
    origins[((batch.before batch.edits.length).map.apply offset).toNat]? =
      some (.original offset.toNat)
  /-- The characters of the document keep their order. -/
  original_lt_original {p q i j : ℕ} (hp : origins[p]? = some (.original i))
    (hq : origins[q]? = some (.original j)) : p < q ↔ i < j
  /-- Every other character is one of an inserted text. -/
  exists_insertion {number index : ℕ} (h : .inserted number index ∈ origins) :
    ∃ place text, batch.edits[number]? = some (.insertion place text) ∧ index < text.length
  /-- An inserted text that is swallowed is removed whole. -/
  removed {number : ℕ} {place : Offset} {text : String}
    (h : batch.edits[number]? = some (.insertion place text))
    (swallowed : batch.Swallowed number place) (index : ℕ) : .inserted number index ∉ origins
  /-- An inserted text that is not swallowed is kept whole and in one piece. -/
  kept {number : ℕ} {place : Offset} {text : String}
    (h : batch.edits[number]? = some (.insertion place text))
    (swallowed : ¬ batch.Swallowed number place) :
    Origin.ofText number text.length <:+: origins
  /-- A character of the document stands in front of an inserted text if and only if it did so
  before any edit. -/
  original_lt_inserted {p q offset number index : ℕ} {place : Offset} {text : String}
    (h : batch.edits[number]? = some (.insertion place text))
    (hp : origins[p]? = some (.original offset))
    (hq : origins[q]? = some (.inserted number index)) : p < q ↔ offset < place.toNat
  /-- An inserted text stands in front of a later one if and only if its place was not behind that
  of the later one when it was put in. -/
  inserted_lt_inserted {p q number later index index' : ℕ} {place place' : Offset}
    {text text' : String} (hlt : number < later)
    (h : batch.edits[number]? = some (.insertion place text))
    (h' : batch.edits[later]? = some (.insertion place' text'))
    (hp : origins[p]? = some (.inserted number index))
    (hq : origins[q]? = some (.inserted later index')) :
    p < q ↔
      (batch.before number).map.apply place ≤ (batch.before number).map.apply place'

section Fits

variable {batch} (fits : ∀ edit ∈ batch.edits, edit.Fits (insertedLength batch.edits))

include fits

/-- Before an edit, the offsets in front of the place of an offset are those in front of its
seat. -/
lemma apply_lt_apply_iff {number : ℕ} (hnumber : number ≤ batch.edits.length)
    {offset place : Offset}
    (hoffset : offset.toNat + insertedLength batch.edits ≤ Offset.greatest.toNat)
    (hplace : place.toNat + insertedLength batch.edits ≤ Offset.greatest.toNat) :
    (batch.before number).map.apply offset < (batch.before number).map.apply place ↔
      offset.toNat < (batch.layout number).seat place.toNat := by
  rw [UInt64.lt_iff_toNat_lt, batch.toNat_apply_before fits hnumber _ hoffset,
    batch.toNat_apply_before fits hnumber _ hplace, Layout.place_lt_place_iff]

lemma apply_le_apply_iff {number : ℕ} (hnumber : number ≤ batch.edits.length)
    {offset place : Offset}
    (hoffset : offset.toNat + insertedLength batch.edits ≤ Offset.greatest.toNat)
    (hplace : place.toNat + insertedLength batch.edits ≤ Offset.greatest.toNat) :
    (batch.before number).map.apply place ≤ (batch.before number).map.apply offset ↔
      (batch.layout number).seat place.toNat ≤ offset.toNat := by
  rw [← UInt64.not_lt, apply_lt_apply_iff fits hnumber hoffset hplace, Nat.not_lt]

/-- **A text is swallowed** if and only if its gap is emptied later. -/
lemma swallowed_iff {number : ℕ} {place : Offset} {text : String}
    (h : batch.edits[number]? = some (.insertion place text)) :
    batch.Swallowed number place ↔
      batch.cleared (number + 1) batch.edits.length
        ((batch.layout number).seat place.toNat) = true := by
  have hnumber : number ≤ batch.edits.length := (List.getElem?_eq_some_iff.mp h).1.le
  have hplace := (fits _ (List.mem_of_getElem? h)).1
  rw [Swallowed, cleared_eq_true]
  constructor
  · rintro ⟨later, start, stop, hlater, hedit, -, hstart, hstop⟩
    obtain ⟨hfits, hfits'⟩ := fits _ (List.mem_of_getElem? hedit)
    exact ⟨later, start, stop, hlater, hedit,
      (apply_lt_apply_iff fits hnumber hfits hplace).mp hstart,
      (apply_le_apply_iff fits hnumber hfits' hplace).mp hstop⟩
  · rintro ⟨later, start, stop, hlater, hedit, hstart, hstop⟩
    obtain ⟨hfits, hfits'⟩ := fits _ (List.mem_of_getElem? hedit)
    exact ⟨later, start, stop, hlater, hedit, UInt64.lt_iff_toNat_lt.mpr (by omega),
      (apply_lt_apply_iff fits hnumber hfits hplace).mpr hstart,
      (apply_le_apply_iff fits hnumber hfits' hplace).mpr hstop⟩

/-- A character of the document that survives stands where the offset map takes its offset. -/
lemma getElem?_front_original {size : ℕ} {offset : Offset}
    (hoffset : offset.toNat + insertedLength batch.edits ≤ Offset.greatest.toNat)
    (hmem : .original offset.toNat ∈ (batch.layout batch.edits.length).front size) :
    ((batch.layout batch.edits.length).front size)[
      ((batch.before batch.edits.length).map.apply offset).toNat]? =
        some (.original offset.toNat) := by
  obtain ⟨hgap, -, -, hcleared⟩ := (batch.mem_front le_rfl).mp hmem
  have hhead : ∃ rest, batch.layout batch.edits.length (offset.toNat + 1) =
      .original offset.toNat :: rest := by
    rw [batch.layout_eq_held le_rfl, held, List.range_succ_eq_map, List.flatMap_cons]
    simp only [Origin.age, Batch.gap] at hcleared
    rw [hcleared]
    exact ⟨_, rfl⟩
  obtain ⟨rest, hrest⟩ := hhead
  obtain ⟨behind, hbehind⟩ := (batch.layout batch.edits.length).front_prefix_front hgap
  rw [batch.toNat_apply_before fits le_rfl _ hoffset, ← hbehind, Batch.gap, Layout.front, hrest,
    Layout.place]
  simp

end Fits

/-- A character of the document that survives precedes a text if and only if it stands in front of
the place of the text. -/
lemma original_precedes_inserted {size offset number index : ℕ} {place : Offset} {text : String}
    (h : batch.edits[number]? = some (.insertion place text))
    (hmem : .original offset ∈ (batch.layout batch.edits.length).front size) :
    batch.Precedes (.original offset) (.inserted number index) ↔ offset < place.toNat := by
  have hseat := (batch.layout number).seat_le place.toNat
  rw [Precedes, gap_inserted batch h, Batch.gap]
  simp only [Origin.age, Edit.start]
  constructor
  · omega
  · intro hlt
    have hnumber : number ≤ batch.edits.length := (List.getElem?_eq_some_iff.mp h).1.le
    have hgap := (batch.layout number).le_seat (show offset + 1 ≤ place.toNat from hlt)
      (batch.layout_gap_ne_nil hnumber hmem (Nat.zero_le number))
    omega

/-- A text that survives precedes a later one if and only if its seat is not behind the place of
the later one. -/
lemma inserted_precedes_inserted {size number later index index' : ℕ} {place place' : Offset}
    {text text' : String} (hlt : number < later)
    (h : batch.edits[number]? = some (.insertion place text))
    (h' : batch.edits[later]? = some (.insertion place' text'))
    (hmem : .inserted number index ∈ (batch.layout batch.edits.length).front size) :
    batch.Precedes (.inserted number index) (.inserted later index') ↔
      (batch.layout number).seat place.toNat ≤ place'.toNat := by
  have hseat := (batch.layout later).seat_le place'.toNat
  have hne := batch.layout_gap_ne_nil (List.getElem?_eq_some_iff.mp h').1.le hmem
    (show number + 1 ≤ later from hlt)
  rw [gap_inserted batch h] at hne
  rw [Precedes, gap_inserted batch h, gap_inserted batch h']
  simp only [Origin.age, Edit.start] at hne ⊢
  constructor
  · omega
  · intro hle
    have hgap := (batch.layout later).le_seat hle hne
    omega

/-- **The law of survival** of a batch that lies inside a document. -/
lemma survival {size : ℕ} (fits : ∀ edit ∈ batch.edits, edit.Fits (insertedLength batch.edits))
    (starts : ∀ edit ∈ batch.edits, edit.start.toNat ≤ size)
    (room : size + insertedLength batch.edits ≤ Offset.greatest.toNat) :
    batch.Survival size ((batch.layout batch.edits.length).front size) := by
  have horder := batch.pairwise_precedes (le_refl batch.edits.length) size
  refine ⟨?_, ?_, ?_, ?_, ?_, ?_, ?_, ?_, ?_⟩
  · refine horder.imp fun hprecedes heq => ?_
    subst heq
    exact hprecedes.asymm hprecedes
  · intro offset
    rw [batch.mem_front le_rfl, Origin.age, Batch.gap, ← Bool.not_eq_true, cleared_eq_true]
    constructor
    · rintro ⟨hsize, -, -, hcleared⟩
      refine ⟨hsize, fun start stop hmem hcovers => hcleared ?_⟩
      obtain ⟨number, h⟩ := List.mem_iff_getElem?.mp hmem
      exact ⟨number, start, stop, Nat.zero_le number, h, by omega, by omega⟩
    · rintro ⟨hsize, hcovers⟩
      refine ⟨hsize, Nat.zero_le _, trivial, ?_⟩
      rintro ⟨number, start, stop, -, h, hstart, hstop⟩
      exact hcovers start stop (List.mem_of_getElem? h) ⟨by omega, by omega⟩
  · intro offset hmem
    have hgap := ((batch.mem_front le_rfl).mp hmem).1
    rw [Batch.gap] at hgap
    exact getElem?_front_original fits (by omega) hmem
  · intro p q i j hp hq
    rw [lt_iff_precedes horder hp hq, Precedes, Batch.gap, Batch.gap]
    simp only [Origin.age, Origin.index]
    omega
  · intro number index hmem
    obtain ⟨-, -, ⟨edit, h, hindex⟩, -⟩ := (batch.mem_front le_rfl).mp hmem
    cases edit with
    | insertion place text => exact ⟨place, text, h, hindex⟩
    | deletion start stop => simp [Edit.text] at hindex
  · intro number place text h hswallowed index hmem
    obtain ⟨-, -, -, hcleared⟩ := (batch.mem_front le_rfl).mp hmem
    rw [swallowed_iff fits h] at hswallowed
    rw [gap_inserted batch h, Origin.age] at hcleared
    simp only [Edit.start, hswallowed] at hcleared
    cases hcleared
  · intro number place text h hswallowed
    rw [swallowed_iff fits h, Bool.not_eq_true] at hswallowed
    have hseat := (batch.layout number).seat_le place.toNat
    have hstart := starts _ (List.mem_of_getElem? h)
    exact batch.ofText_infix_front h (hseat.trans hstart) hswallowed
  · intro p q offset number index place text h hp hq
    rw [lt_iff_precedes horder hp hq]
    exact batch.original_precedes_inserted h (List.mem_of_getElem? hp)
  · intro p q number later index index' place place' text text' hlt h h' hp hq
    have hnumber : number ≤ batch.edits.length := (List.getElem?_eq_some_iff.mp h).1.le
    rw [lt_iff_precedes horder hp hq,
      batch.inserted_precedes_inserted hlt h h' (List.mem_of_getElem? hp)]
    exact (apply_le_apply_iff fits hnumber (fits _ (List.mem_of_getElem? h')).1
      (fits _ (List.mem_of_getElem? h)).1).symm

variable {D : Type} [Document D] [LawfulDocument D]

/-- **What a batch leaves of a document** that it lies inside of, if all inserted characters have
room: the batch is made, the document shows the characters of its origins, and these obey the law
of survival.

**Proof sketch.** The origins are those of the layout (`exists_apply`). Each gap of the layout
holds what was put into it and not taken out since (`layout_eq_held`), so that survival and order
are questions about gaps, and an offset map tells gaps apart by the places of their offsets
(`apply_lt_apply_iff`). -/
theorem apply_survival (document : D) (ordered : ∀ edit ∈ batch.edits, edit.Ordered)
    (within : ∀ edit ∈ batch.edits, edit.Within (length document))
    (room : length document + insertedLength batch.edits ≤ Offset.greatest.toNat) :
    ∃ final caret, batch.apply document = (final, .ok caret) ∧
      (chars final).map some =
        (batch.origins (length document) batch.edits.length).map
          (batch.source? (chars document)) ∧
      batch.Survival (length document)
        (batch.origins (length document) batch.edits.length) := by
  obtain ⟨final, happly, htext, hlayout⟩ := batch.exists_apply document ordered within room
  refine ⟨final, _, happly, htext, ?_⟩
  rw [hlayout]
  apply batch.survival
  · exact fun edit hmem => (within edit hmem).fits (ordered edit hmem) room
  · exact fun edit hmem => (within edit hmem).start_le (ordered edit hmem)
  · exact room

/-- A text at the start of a range that is then removed survives, and one at its end does not. -/
theorem apply_survival_boundary :
    let batch : Batch := ⟨[.insertion 1 "kept", .insertion 3 "gone", .deletion 1 3]⟩
    let document : FlatText := ⟨"abcdef"⟩
    (∀ edit ∈ batch.edits, edit.Ordered) ∧
    (∀ edit ∈ batch.edits, edit.Within (length document)) ∧
    length document + insertedLength batch.edits ≤ Offset.greatest.toNat ∧
    ∃ final caret, batch.apply document = (final, .ok caret) ∧
      chars final = ['a', 'k', 'e', 'p', 't', 'd', 'e', 'f'] ∧
      batch.Swallowed 1 3 ∧
      ∀ index, .inserted 1 index ∉ batch.origins (length document) batch.edits.length := by
  intro batch document
  have ordered : ∀ edit ∈ batch.edits, edit.Ordered := by decide
  have within : ∀ edit ∈ batch.edits, edit.Within (length document) := by decide
  have room : length document + insertedLength batch.edits ≤ Offset.greatest.toNat := by decide
  have swallowed : batch.Swallowed 1 3 :=
    ⟨2, 1, 3, by decide, rfl, by decide, by decide, by decide⟩
  obtain ⟨final, caret, happly, htext, hsurvival⟩ :=
    apply_survival batch document ordered within room
  refine ⟨ordered, within, room, final, caret, happly, ?_, swallowed, ?_⟩
  · exact List.map_injective_iff.mpr (fun _ _ => Option.some.inj) (htext.trans (by decide))
  · have h : batch.edits[1]? = some (.insertion 3 "gone") := rfl
    exact hsurvival.removed h swallowed

end Batch

end EditBatch
