set_option autoImplicit false

/-!
# Offsets

An offset counts the characters in front of a place in a document. Recorded offsets fit a
64-bit word; moving one forward stops at the greatest offset instead of wrapping around.

## Main definitions

* `EditBatch.Offset` — a 64-bit count of characters.
* `EditBatch.Offset.greatest` — the greatest offset.
* `EditBatch.Offset.advance` — a forward move that stops at the greatest offset.
* `EditBatch.Offset.ofNat` — the offset behind a number of characters.

## Main results

* `EditBatch.Offset.toNat_advance` — the move as arithmetic of natural numbers.
-/

namespace EditBatch

/-- A count of characters from the start of a document. -/
abbrev Offset := UInt64

namespace Offset

/-- The greatest offset, `2 ^ 64 - 1`. -/
def greatest : Offset := 18446744073709551615

/-- The offset `count` characters further on, or the greatest offset if there is none. -/
def advance (offset : Offset) (count : Nat) : Offset :=
  UInt64.ofNat (min (offset.toNat + count) greatest.toNat)

/-- The offset with a given number of characters in front of it, or the greatest offset. -/
def ofNat (count : Nat) : Offset := advance 0 count

theorem toNat_greatest : greatest.toNat = UInt64.size - 1 := rfl

/-- Every offset is at most the greatest one. -/
theorem toNat_le_greatest (offset : Offset) : offset.toNat ≤ greatest.toNat := by
  have := offset.toNat_lt_size
  rw [toNat_greatest]
  omega

/-- A move adds the count, up to the greatest offset. -/
theorem toNat_advance (offset : Offset) (count : Nat) :
    (offset.advance count).toNat = min (offset.toNat + count) greatest.toNat := by
  have h : min (offset.toNat + count) greatest.toNat < UInt64.size := by
    have : 0 < UInt64.size := by decide
    rw [toNat_greatest]
    omega
  exact UInt64.toNat_ofNat_of_lt' h

/-- A move never leads back. -/
theorem le_advance (offset : Offset) (count : Nat) : offset ≤ offset.advance count := by
  have := toNat_le_greatest offset
  rw [UInt64.le_iff_toNat_le, toNat_advance]
  omega

theorem toNat_ofNat (count : Nat) : (ofNat count).toNat = min count greatest.toNat := by
  rw [ofNat, toNat_advance]
  simp

end Offset

end EditBatch
