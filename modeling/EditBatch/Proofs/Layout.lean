import Mathlib.Data.List.Basic
import Mathlib.Data.Nat.Basic
import Mathlib.Tactic.Common
set_option autoImplicit false

/-!
# Characters in the gaps between offsets

The offsets of an unedited document cut what becomes of it into gaps: gap `0` in front of offset
`0`, and gap `n + 1` between the offsets `n` and `n + 1`. Editing moves characters in and out of
gaps, but never moves an offset past a character. So the place of an offset is a length: the
number of characters in the gaps in front of it.

## Main definitions

* `EditBatch.Layout` — the characters in each gap.
* `EditBatch.Layout.front`, `EditBatch.Layout.place` — the characters in front of an offset, and
  how many they are.
* `EditBatch.Layout.seat` — the gap at whose end a text for an offset is put.
* `EditBatch.Layout.insert`, `EditBatch.Layout.delete` — the two changes.

## Main results

* `EditBatch.Layout.place_lt_place_iff` — which offsets lie in front of a seat.
* `EditBatch.Layout.front_insert_of_le`, `EditBatch.Layout.front_delete_of_le` — the changes are
  splices.
* `EditBatch.Layout.place_insert`, `EditBatch.Layout.place_delete` — what they do to places.
-/

namespace EditBatch

/-- The characters in each gap between the offsets of a document. Gap `n` ends at offset `n`. -/
abbrev Layout (α : Type) := ℕ → List α

namespace Layout

variable {α β : Type}

/-- The characters in front of an offset. -/
def front (layout : Layout α) : ℕ → List α
  | 0 => layout 0
  | offset + 1 => front layout offset ++ layout (offset + 1)

/-- The number of characters in front of an offset. -/
def place (layout : Layout α) (offset : ℕ) : ℕ := (layout.front offset).length

/-- The last gap with characters up to an offset, or the first gap if there is none. -/
def seat (layout : Layout α) : ℕ → ℕ
  | 0 => 0
  | offset + 1 => if (layout (offset + 1)).isEmpty then seat layout offset else offset + 1

/-- Puts a text right behind the last character in front of an offset. -/
def insert (layout : Layout α) (offset : ℕ) (text : List α) : Layout α :=
  fun gap => if gap = layout.seat offset then layout gap ++ text else layout gap

/-- Empties the gaps between two offsets. -/
def delete (layout : Layout α) (start stop : ℕ) : Layout α :=
  fun gap => if start < gap ∧ gap ≤ stop then [] else layout gap

/-- The layout with other characters in the same gaps. -/
def map (f : α → β) (layout : Layout α) : Layout β := fun gap => (layout gap).map f

variable (layout : Layout α)

/-! ## Fronts and places -/

/-- What stands in front of an offset, gap by gap. -/
lemma front_eq_flatMap (offset : ℕ) :
    layout.front offset = (List.range (offset + 1)).flatMap layout := by
  induction offset with
  | zero => exact (List.flatMap_singleton layout 0).symm
  | succ offset ih => rw [front, List.range_succ, List.flatMap_append, List.flatMap_singleton, ih]

/-- What stands in front of an offset depends on the gaps up to it. -/
lemma front_congr {other : Layout α} {offset : ℕ}
    (h : ∀ gap ≤ offset, layout gap = other gap) : layout.front offset = other.front offset := by
  induction offset with
  | zero => exact h 0 le_rfl
  | succ offset ih =>
    rw [front, front, ih fun gap hgap => h gap (by omega), h (offset + 1) le_rfl]

/-- What stands in front of an offset also stands in front of every later one. -/
lemma front_prefix_front {offset later : ℕ} (h : offset ≤ later) :
    layout.front offset <+: layout.front later := by
  induction later, h using Nat.le_induction with
  | base => exact List.prefix_rfl
  | succ later _ ih => exact ih.trans (List.prefix_append _ _)

lemma place_mono {offset later : ℕ} (h : offset ≤ later) :
    layout.place offset ≤ layout.place later :=
  (layout.front_prefix_front h).length_le

lemma place_succ (offset : ℕ) :
    layout.place (offset + 1) = layout.place offset + (layout (offset + 1)).length := by
  simp [place, front]

/-- The front of an offset is cut off at its place. -/
lemma take_place {offset later : ℕ} (h : offset ≤ later) :
    (layout.front later).take (layout.place offset) = layout.front offset :=
  (List.prefix_iff_eq_take.mp (layout.front_prefix_front h)).symm

/-! ## Seats -/

lemma seat_le (offset : ℕ) : layout.seat offset ≤ offset := by
  induction offset with
  | zero => exact le_rfl
  | succ offset ih =>
    rw [seat]
    split_ifs <;> omega

/-- Nothing stands between the seat of an offset and the offset. -/
lemma front_seat (offset : ℕ) : layout.front (layout.seat offset) = layout.front offset := by
  induction offset with
  | zero => rfl
  | succ offset ih =>
    rw [seat]
    split_ifs with hempty
    · rw [ih, front, List.isEmpty_iff.mp hempty, List.append_nil]
    · rfl

lemma place_seat (offset : ℕ) : layout.place (layout.seat offset) = layout.place offset := by
  rw [place, front_seat, place]

/-- A seat other than the first has characters. -/
lemma ne_nil_of_seat_eq_succ {offset gap : ℕ} (h : layout.seat offset = gap + 1) :
    layout (gap + 1) ≠ [] := by
  induction offset with
  | zero => simp [seat] at h
  | succ offset ih =>
    rw [seat] at h
    split_ifs at h with hempty
    · exact ih h
    · rwa [← h, ne_eq, ← List.isEmpty_iff]

/-- No gap with characters lies between the seat of an offset and the offset. -/
lemma le_seat {offset gap : ℕ} (hle : gap ≤ offset) (h : layout gap ≠ []) :
    gap ≤ layout.seat offset := by
  induction offset with
  | zero => omega
  | succ offset ih =>
    rw [seat]
    split_ifs with hempty
    · rcases Nat.lt_or_ge gap (offset + 1) with hlt | hge
      · exact ih (by omega)
      · obtain rfl : gap = offset + 1 := by omega
        exact absurd (List.isEmpty_iff.mp hempty) h
    · exact hle

/-- **The places in front of an offset** are those of the offsets in front of its seat. -/
lemma place_lt_place_iff (offset other : ℕ) :
    layout.place other < layout.place offset ↔ other < layout.seat offset := by
  constructor
  · intro hplace
    by_contra hother
    have := layout.place_mono (Nat.le_of_not_lt hother)
    rw [place_seat] at this
    omega
  · intro hother
    obtain ⟨gap, hgap⟩ : ∃ gap, layout.seat offset = gap + 1 :=
      ⟨layout.seat offset - 1, by omega⟩
    have hpos := List.length_pos_iff.mpr (layout.ne_nil_of_seat_eq_succ hgap)
    have hmono := layout.place_mono (show other ≤ gap by omega)
    have hseat := layout.place_seat offset
    rw [hgap, place_succ] at hseat
    omega

/-! ## Insertions -/

/-- Putting in nothing changes nothing. -/
@[simp] lemma insert_nil (offset : ℕ) : layout.insert offset [] = layout := by
  funext gap
  simp [insert]

/-- Offsets in front of the seat keep their front. -/
lemma front_insert_of_lt {offset other : ℕ} (text : List α)
    (h : other < layout.seat offset) :
    (layout.insert offset text).front other = layout.front other := by
  apply front_congr
  intro gap hgap
  rw [insert, if_neg (by omega)]

/-- At its seat a text stands last. -/
lemma front_insert_seat (offset : ℕ) (text : List α) :
    (layout.insert offset text).front (layout.seat offset) = layout.front offset ++ text := by
  rw [← layout.front_seat offset]
  rcases hseat : layout.seat offset with _ | gap
  · simp [front, insert, hseat]
  · rw [front, front_insert_of_lt layout text (by omega), front]
    simp [insert, hseat]

/-- **An insertion is a splice**: from the seat on, the text stands in every front, right behind
the front of the offset it was put in at. -/
lemma front_insert_of_le {offset other : ℕ} (text : List α) (h : layout.seat offset ≤ other) :
    (layout.insert offset text).front other =
      layout.front offset ++ text ++ (layout.front other).drop (layout.place offset) := by
  induction other, h using Nat.le_induction with
  | base => simp [front_insert_seat, front_seat, place]
  | succ other hle ih =>
    have hplace : layout.place offset ≤ (layout.front other).length := by
      rw [← place_seat]
      exact layout.place_mono hle
    rw [front, ih, front, List.drop_append_of_le_length hplace, insert, if_neg (by omega)]
    simp

lemma place_insert (offset other : ℕ) (text : List α) :
    (layout.insert offset text).place other =
      if other < layout.seat offset then layout.place other
      else layout.place other + text.length := by
  split_ifs with h
  · rw [place, front_insert_of_lt layout text h, place]
  · have hplace := layout.place_mono (Nat.le_of_not_lt h)
    rw [place_seat] at hplace
    rw [place, front_insert_of_le layout text (Nat.le_of_not_lt h)]
    simp only [List.length_append, List.length_drop, place] at hplace ⊢
    omega

/-! ## Deletions -/

/-- Deleting an empty range changes nothing. -/
lemma delete_of_le {start stop : ℕ} (h : stop ≤ start) : layout.delete start stop = layout := by
  funext gap
  rw [delete, if_neg (by omega)]

/-- Offsets in front of the range keep their front. -/
lemma front_delete_of_le_start {start stop other : ℕ} (h : other ≤ start) :
    (layout.delete start stop).front other = layout.front other := by
  apply front_congr
  intro gap hgap
  rw [delete, if_neg (by omega)]

/-- Inside the range all offsets have the front of its start. -/
lemma front_delete_of_le_stop {start stop other : ℕ} (hstart : start ≤ other)
    (hstop : other ≤ stop) : (layout.delete start stop).front other = layout.front start := by
  induction other, hstart using Nat.le_induction with
  | base => exact layout.front_delete_of_le_start le_rfl
  | succ other hle ih =>
    rw [front, ih (by omega), delete, if_pos (by omega), List.append_nil]

/-- **A deletion is a splice**: behind the range, the front of its start is followed by what
stood behind its stop. -/
lemma front_delete_of_le {start stop other : ℕ} (hrange : start ≤ stop) (hother : stop ≤ other) :
    (layout.delete start stop).front other =
      layout.front start ++ (layout.front other).drop (layout.place stop) := by
  induction other, hother using Nat.le_induction with
  | base => simp [front_delete_of_le_stop layout hrange le_rfl, place]
  | succ other hle ih =>
    have hplace : layout.place stop ≤ (layout.front other).length := layout.place_mono hle
    rw [front, ih, front, List.drop_append_of_le_length hplace, delete, if_neg (by omega)]
    simp

lemma place_delete {start stop : ℕ} (hrange : start ≤ stop) (other : ℕ) :
    (layout.delete start stop).place other =
      layout.place other - (min (layout.place other) (layout.place stop) - layout.place start) := by
  have hmono := layout.place_mono hrange
  rcases Nat.le_total other start with hbefore | hafter
  · have := layout.place_mono hbefore
    rw [place, front_delete_of_le_start layout hbefore, ← place]
    omega
  · have hstart := layout.place_mono hafter
    rcases Nat.le_total other stop with hinside | hbehind
    · have := layout.place_mono hinside
      rw [place, front_delete_of_le_stop layout hafter hinside, ← place]
      omega
    · have := layout.place_mono hbehind
      rw [place, front_delete_of_le layout hrange hbehind, List.length_append, List.length_drop,
        ← place, ← place]
      omega

/-! ## Other characters in the same gaps -/

lemma front_map (f : α → β) (offset : ℕ) :
    (layout.map f).front offset = (layout.front offset).map f := by
  induction offset with
  | zero => rfl
  | succ offset ih => rw [front, ih, front, List.map_append, map]

lemma place_map (f : α → β) (offset : ℕ) : (layout.map f).place offset = layout.place offset := by
  rw [place, front_map, List.length_map, place]

lemma seat_map (f : α → β) (offset : ℕ) : (layout.map f).seat offset = layout.seat offset := by
  induction offset with
  | zero => rfl
  | succ offset ih => simp [seat, ih, map]

lemma insert_map (f : α → β) (offset : ℕ) (text : List α) :
    (layout.insert offset text).map f = (layout.map f).insert offset (text.map f) := by
  funext gap
  simp only [insert, map, seat_map]
  split_ifs <;> simp

lemma delete_map (f : α → β) (start stop : ℕ) :
    (layout.delete start stop).map f = (layout.map f).delete start stop := by
  funext gap
  simp only [delete, map]
  split_ifs <;> simp

end Layout

end EditBatch
