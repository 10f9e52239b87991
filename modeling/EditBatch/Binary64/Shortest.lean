import EditBatch.Binary64
set_option autoImplicit false

/-!
# The shortest decimal of a binary number

A binary number is written with the fewest digits that read back to it, and of those with the
nearest ones.

## Main definitions

* `EditBatch.Magnitude.shortest` — digits and power of ten.
* `EditBatch.Binary64.render` — the digits laid out with a point or an exponent.
-/

namespace EditBatch

namespace Magnitude

/-- The numbers that round to a magnitude, over a common denominator. -/
structure Interval where
  low : Nat
  middle : Nat
  high : Nat
  den : Nat
  /-- Whether the two ends round to the magnitude. -/
  closed : Bool

/-- The numbers that round to `x`. Below a power of two they are half as dense as above. -/
def interval (x : Magnitude) : Interval :=
  let below := if x.mantissa = 1 <<< 52 ∧ leastExponent < x.exponent then 1 else 2
  let (unit, den) := quotient 1 (x.exponent - 2)
  ⟨(4 * x.mantissa - below) * unit, 4 * x.mantissa * unit, (4 * x.mantissa + 2) * unit, den,
    x.mantissa % 2 = 0⟩

/-- Whether `digits * 10 ^ power` lies in the interval. -/
def Interval.holds (range : Interval) (digits : Nat) (power : Int) : Bool :=
  let value := digits * Nat.pow 10 power.toNat * range.den
  let scale := Nat.pow 10 (-power).toNat
  if range.closed then range.low * scale ≤ value ∧ value ≤ range.high * scale
  else range.low * scale < value ∧ value < range.high * scale

/-- The power of ten just above a quotient, found by counting down from a power that is
above it. -/
def powerAbove (num den : Nat) : Nat → Int → Int
  | 0, power => power
  | steps + 1, power =>
    if num * Nat.pow 10 (1 - power).toNat < den * Nat.pow 10 (power - 1).toNat
    then powerAbove num den steps (power - 1)
    else power

/-- The nearest decimal in the interval on the grid with a given power of ten, if there is
one. -/
def Interval.nearest? (range : Interval) (power : Int) : Option Nat :=
  let num := range.middle * Nat.pow 10 (-power).toNat
  let den := range.den * Nat.pow 10 power.toNat
  let low := num / den
  match range.holds low power, range.holds (low + 1) power with
  | true, true => some (roundQuotient num den)
  | true, false => some low
  | false, true => some (low + 1)
  | false, false => none

/-- The first grid that has a decimal in the interval, from the coarsest to the finest. -/
def Interval.search (range : Interval) : Nat → Int → Nat × Int
  | 0, power => (range.middle, power)
  | steps + 1, power =>
    match range.nearest? power with
    | some digits => (digits, power)
    | none => range.search steps (power - 1)

/-- The fewest digits that read back to the magnitude, and the power of ten of the last. -/
def shortest (x : Magnitude) : Nat × Int :=
  let range := x.interval
  let above := powerAbove range.middle range.den 700 310
  range.search 20 (above - 1)

end Magnitude

/-- How decimals are laid out. -/
structure DecimalLayout where
  /-- The least exponent of the first digit for which no exponent is written. -/
  leastPositional : Int
  /-- The greatest exponent of the first digit for which no exponent is written. -/
  greatestPositional : Int
  /-- The least number of digits of an exponent. -/
  exponentDigits : Nat

namespace Binary64

/-- Numbers from `0.00001` up to sixteen places before the point are written without an
exponent, and always with a point; exponents have a sign and at least two digits. -/
def layout : DecimalLayout := ⟨-5, 15, 2⟩

/-- Zeros in front, up to a given number of digits. -/
def padded (width number : Nat) : String :=
  let digits := toString number
  String.ofList (List.replicate (width - digits.length) '0') ++ digits

/-- Digits without an exponent. The exponent given is that of the first digit. -/
def positional (digits : List Char) (exponent : Int) : String :=
  if exponent < 0 then
    "0." ++ String.ofList (List.replicate (-exponent - 1).toNat '0' ++ digits)
  else
    let whole := exponent.toNat + 1
    let front := digits.take whole ++ List.replicate (whole - digits.length) '0'
    let back := digits.drop whole
    String.ofList front ++ "." ++ (if back.isEmpty then "0" else String.ofList back)

/-- Digits with an exponent, which is that of the first digit. -/
def scientific (layout : DecimalLayout) (digits : List Char) (exponent : Int) : String :=
  let mantissa := match digits with
    | [] => "0"
    | [digit] => String.ofList [digit]
    | digit :: rest => String.ofList (digit :: '.' :: rest)
  mantissa ++ (if exponent < 0 then "e-" else "e+")
    ++ padded layout.exponentDigits exponent.natAbs

/-- The shortest decimal of a number. -/
def render : Binary64 → String
  | .nan => "NaN"
  | .infinite negative => if negative then "-inf" else "inf"
  | .finite negative magnitude =>
    let sign := if negative then "-" else ""
    if magnitude.isZero then sign ++ "0.0"
    else
      let (number, power) := magnitude.shortest
      let digits := Nat.toDigits 10 number
      let exponent := power + digits.length - 1
      let digits := (digits.reverse.dropWhile (· == '0')).reverse
      sign ++ (if layout.leastPositional ≤ exponent ∧ exponent ≤ layout.greatestPositional
        then positional digits exponent else scientific layout digits exponent)

end Binary64

end EditBatch
