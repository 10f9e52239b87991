import EditBatch.OffsetMap
import Mathlib.Tactic.Common
set_option autoImplicit false

/-!
# Offset maps as arithmetic

Each step of an offset map is a formula over natural numbers, and a map with one more change is
the old map followed by the step of the change.

## Main results

* `EditBatch.Offset.toNat_ofNat_of_le` — counts up to the greatest offset are offsets.
* `EditBatch.Step.toNat_apply_shift`, `EditBatch.Step.toNat_apply_collapse` — the two steps.
* `EditBatch.OffsetMap.apply_afterInsertion`, `EditBatch.OffsetMap.toNat_apply_afterRemoval` — one
  more change.
-/

namespace EditBatch

namespace Offset

lemma toNat_ofNat_of_le {count : ℕ} (h : count ≤ greatest.toNat) : (ofNat count).toNat = count := by
  rw [toNat_ofNat, Nat.min_eq_left h]

lemma ofNat_le_ofNat {count more : ℕ} (h : count ≤ more) : ofNat count ≤ ofNat more := by
  rw [UInt64.le_iff_toNat_le, toNat_ofNat, toNat_ofNat]
  omega

end Offset

namespace Step

/-- A shift moves the offsets from its place on, up to the greatest offset. -/
lemma toNat_apply_shift (place : Offset) (count : ℕ) (offset : Offset) :
    ((Step.shift place count).apply offset).toNat =
      if offset.toNat < place.toNat then offset.toNat
      else min (offset.toNat + count) Offset.greatest.toNat := by
  simp only [Step.apply, UInt64.lt_iff_toNat_lt]
  split_ifs
  · rfl
  · rw [Offset.toNat_advance]

/-- A collapse takes away from an offset what of the range lies in front of it. -/
lemma toNat_apply_collapse {start stop : Offset} (order : start.toNat ≤ stop.toNat)
    (offset : Offset) :
    ((Step.collapse start stop).apply offset).toNat =
      offset.toNat - (min offset.toNat stop.toNat - start.toNat) := by
  have hwidth : (stop - start).toNat = stop.toNat - start.toNat :=
    UInt64.toNat_sub_of_le _ _ (UInt64.le_iff_toNat_le.mpr order)
  simp only [Step.apply, UInt64.le_iff_toNat_le]
  split_ifs with hbefore hafter
  · omega
  · have hle : stop - start ≤ offset := UInt64.le_iff_toNat_le.mpr (by omega)
    rw [UInt64.toNat_sub_of_le _ _ hle]
    omega
  · omega

end Step

namespace OffsetMap

variable (map : OffsetMap)

/-- After an insertion an offset takes one more shift. -/
lemma apply_afterInsertion (place : Offset) (count : ℕ) (offset : Offset) :
    (map.afterInsertion place count).apply offset =
      (Step.shift place count).apply (map.apply offset) := by
  rw [afterInsertion]
  split_ifs with hcount
  · simp [apply, List.foldl_append]
  · -- a shift by nothing is not recorded, and would move nothing
    obtain rfl : count = 0 := by omega
    have hle := Offset.toNat_le_greatest (map.apply offset)
    apply UInt64.toNat_inj.mp
    rw [Step.toNat_apply_shift]
    split_ifs <;> omega

/-- After a removal an offset takes one more collapse. -/
lemma toNat_apply_afterRemoval (start stop offset : Offset) :
    ((map.afterRemoval start stop).apply offset).toNat =
      (map.apply offset).toNat -
        (min (map.apply offset).toNat stop.toNat - start.toNat) := by
  rw [afterRemoval]
  split_ifs with hrange
  · rw [← Step.toNat_apply_collapse (Nat.le_of_lt (UInt64.lt_iff_toNat_lt.mp hrange))]
    simp [apply, List.foldl_append]
  · rw [UInt64.lt_iff_toNat_lt] at hrange
    omega

end OffsetMap

end EditBatch
