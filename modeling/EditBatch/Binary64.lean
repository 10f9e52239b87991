set_option autoImplicit false

/-!
# Numbers with a 64-bit binary fraction

Written decimals are read as binary numbers of 53 significant bits. All arithmetic is done
exactly on natural numbers and rounded once, to the nearest number, a half to the even one.

## Main definitions

* `EditBatch.Magnitude` — `mantissa * 2 ^ exponent`.
* `EditBatch.Magnitude.round?` — the nearest magnitude of a quotient, unless it is too great.
* `EditBatch.Binary64` — a magnitude with a sign, or one of the special values.
* `EditBatch.Binary64.scaled?` — a whole number times a power of ten.
* `EditBatch.Binary64.ofDecimal?` — a decimal rounded once.
-/

namespace EditBatch

/-- The number `mantissa * 2 ^ exponent`. -/
structure Magnitude where
  mantissa : Nat
  exponent : Int
  deriving DecidableEq, Repr

/-- The whole number nearest to a quotient. A half goes to the even neighbour. -/
def roundQuotient (num den : Nat) : Nat :=
  let low := num / den
  let twice := 2 * (num % den)
  if twice < den then low
  else if den < twice then low + 1
  else if low % 2 = 0 then low else low + 1

namespace Magnitude

def zero : Magnitude := ⟨0, -1074⟩

/-- Whether the number is zero. -/
def isZero (x : Magnitude) : Bool := x.mantissa == 0

/-- The least exponent, that of the smallest numbers. -/
def leastExponent : Int := -1074

/-- The greatest exponent. -/
def greatestExponent : Int := 971

/-- The number of units `2 ^ exponent` in a quotient, rounded. -/
def unitsAt (num den : Nat) (exponent : Int) : Nat :=
  roundQuotient (num <<< (-exponent).toNat) (den <<< exponent.toNat)

/-- The exponent at which a quotient has 53 significant bits, or the least exponent. -/
def exponentFor (num den : Nat) : Int :=
  let estimate : Int := num.log2 - den.log2 - 52
  let full := num <<< (-estimate).toNat ≥ den <<< (estimate.toNat + 52)
  max leastExponent (if full then estimate else estimate - 1)

/-- The magnitude nearest to a quotient. There is none if the quotient is too great. -/
def round? (num den : Nat) : Option Magnitude :=
  if num = 0 then some zero
  else
    let exponent := exponentFor num den
    let units := unitsAt num den exponent
    let rounded : Magnitude :=
      if units = 1 <<< 53 then ⟨1 <<< 52, exponent + 1⟩ else ⟨units, exponent⟩
    if rounded.exponent ≤ greatestExponent then some rounded else none

/-- The product of a magnitude and a power of two, as a quotient. -/
def quotient (mantissa : Nat) (exponent : Int) : Nat × Nat :=
  (mantissa <<< exponent.toNat, 1 <<< (-exponent).toNat)

/-- The rounded product. -/
def mul? (x y : Magnitude) : Option Magnitude :=
  let (num, den) := quotient (x.mantissa * y.mantissa) (x.exponent + y.exponent)
  round? num den

/-- The rounded quotient. -/
def div? (x y : Magnitude) : Option Magnitude :=
  let (num, den) := quotient x.mantissa (x.exponent - y.exponent)
  round? num (den * y.mantissa)

/-- The greatest power of ten that is a magnitude, `10 ^ 308`. -/
def greatestPower : Nat := 308

/-- A magnitude divided by a power of ten, in steps of at most `10 ^ 308`. -/
def divPowerOfTen (x : Magnitude) (power : Nat) : Magnitude :=
  if x.isZero then x
  else
    let step := min power greatestPower
    let quotient := ((round? (Nat.pow 10 step) 1).bind x.div?).getD zero
    if power ≤ greatestPower then quotient
    else divPowerOfTen quotient (power - greatestPower)
termination_by power
decreasing_by
  simp [greatestPower] at *
  omega

/-- A magnitude times a power of ten. -/
def mulPowerOfTen? (x : Magnitude) (power : Nat) : Option Magnitude :=
  if x.isZero then some x
  else if greatestPower < power then none
  else (round? (Nat.pow 10 power) 1).bind x.mul?

end Magnitude

/-- A binary number, which may be infinite or no number at all. -/
inductive Binary64 where
  | nan
  | infinite (negative : Bool)
  | finite (negative : Bool) (magnitude : Magnitude)
  deriving DecidableEq, Repr

namespace Binary64

/-- A whole number times a power of ten, rounded as a number, as a power and as their product
or quotient. There is no result if it is too great. -/
def scaled? (negative : Bool) (significand : Nat) (power : Int) : Option Binary64 := do
  let whole ← Magnitude.round? significand 1
  if 0 ≤ power then return .finite negative (← whole.mulPowerOfTen? power.toNat)
  else return .finite negative (whole.divPowerOfTen (-power).toNat)

/-- A decimal, rounded once. There is no result if it is too great. A decimal with more than
`10 ^ 310` before its point is too great, and one below `10 ^ -400` is zero. -/
def ofDecimal? (negative : Bool) (significand : Nat) (power : Int) : Option Binary64 :=
  let digits : Int := (Nat.toDigits 10 significand).length
  if significand = 0 ∨ digits + power < -400 then some (.finite negative .zero)
  else if 311 < digits + power then none
  else (Magnitude.round? (significand * Nat.pow 10 power.toNat) (Nat.pow 10 (-power).toNat)).map
    (.finite negative)

end Binary64

end EditBatch
