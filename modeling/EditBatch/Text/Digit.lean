set_option autoImplicit false

/-!
# Digits

## Main definitions

* `EditBatch.digit?` — the value of a digit.
* `EditBatch.natural?` — the number that digits write.
-/

namespace EditBatch

/-- The value of a digit, letters standing for ten and more. -/
def digit? (radix : Nat) (c : Char) : Option Nat :=
  let value :=
    if c.isDigit then c.toNat - '0'.toNat
    else if 'a' ≤ c ∧ c ≤ 'z' then c.toNat - 'a'.toNat + 10
    else if 'A' ≤ c ∧ c ≤ 'Z' then c.toNat - 'A'.toNat + 10
    else radix
  if value < radix then some value else none

/-- The number that one or more digits write. -/
def natural? (radix : Nat) (text : List Char) : Option Nat :=
  if text.isEmpty then none
  else text.foldlM (fun number c => (digit? radix c).map (number * radix + ·)) 0

end EditBatch
