import EditBatch.Value
set_option autoImplicit false

/-!
# Numbers in JSON

A number is read in two steps: its characters are taken apart, then the parts are valued. Whole
numbers that fit 64 bits are kept; all others become binary numbers.

## Main definitions

* `EditBatch.Json.Error` — why a text is not what it should be.
* `EditBatch.Json.Numeral` — the parts of a written number.
* `EditBatch.Json.scanNumeral` — takes a number apart.
* `EditBatch.Json.Numeral.value?` — values it, unless it is out of range.
-/

namespace EditBatch.Json

/-- Why a text is not what it should be. -/
inductive Error where
  /-- It is not JSON. -/
  | malformed
  /-- It ends too early to be JSON. -/
  | truncated
  /-- It is JSON of another shape. -/
  | misshapen (cause : ShapeError)
  deriving DecidableEq, Repr

/-- The parts of a written number. -/
structure Numeral where
  negative : Bool
  /-- The digits in front of the point. -/
  whole : List Nat
  /-- The digits behind the point. -/
  fraction : List Nat
  exponent : Option Int
  deriving DecidableEq, Repr

/-- The values of the digits at the front of a text. -/
def leadingDigits (text : List Char) : List Nat :=
  (text.takeWhile Char.isDigit).map fun c => c.toNat - '0'.toNat

/-- The text behind the digits at its front. -/
def afterDigits (text : List Char) : List Char := text.dropWhile Char.isDigit

/-- At least one digit. Where the text ends instead, `atEnd` is the error. -/
def scanDigits (atEnd : Error) (text : List Char) : Except Error (List Nat × List Char) :=
  match text with
  | [] => .error atEnd
  | c :: _ =>
    if c.isDigit then .ok (leadingDigits text, afterDigits text) else .error .malformed

/-- The digits in front of the point. Only a zero alone may start with a zero. -/
def scanWhole (atEnd : Error) (text : List Char) : Except Error (List Nat × List Char) := do
  let (digits, rest) ← scanDigits atEnd text
  match digits with
  | 0 :: _ :: _ => throw .malformed
  | _ => return (digits, rest)

/-- The digits behind the point, if there is one. -/
def scanFraction (atEnd : Error) : List Char → Except Error (List Nat × List Char)
  | '.' :: rest => scanDigits atEnd rest
  | rest => .ok ([], rest)

/-- The number written by digits. -/
def ofDigits (digits : List Nat) : Nat := digits.foldl (fun number digit => number * 10 + digit) 0

/-- The exponent without its letter. -/
def scanSigned (atEnd : Error) (text : List Char) : Except Error (Option Int × List Char) :=
  match text with
  | '-' :: rest => do
    let (digits, rest) ← scanDigits atEnd rest
    return (some (-(ofDigits digits : Int)), rest)
  | '+' :: rest => do
    let (digits, rest) ← scanDigits atEnd rest
    return (some (ofDigits digits : Int), rest)
  | rest => do
    let (digits, rest) ← scanDigits atEnd rest
    return (some (ofDigits digits : Int), rest)

/-- The exponent, if there is one. -/
def scanExponent (atEnd : Error) : List Char → Except Error (Option Int × List Char)
  | 'e' :: rest => scanSigned atEnd rest
  | 'E' :: rest => scanSigned atEnd rest
  | rest => .ok (none, rest)

/-- Takes a number apart, its sign given. -/
def scanNumeral (atEnd : Error) (negative : Bool) (text : List Char) :
    Except Error (Numeral × List Char) := do
  let (whole, rest) ← scanWhole atEnd text
  let (fraction, rest) ← scanFraction atEnd rest
  let (exponent, rest) ← scanExponent atEnd rest
  return (⟨negative, whole, fraction, exponent⟩, rest)

/-- Appends digits to a number as long as it fits 64 bits. Gives also how many digits are
left. -/
def appendDigits (number : Nat) : List Nat → Nat × Nat
  | [] => (number, 0)
  | digit :: rest =>
    if number * 10 + digit < UInt64.size then appendDigits (number * 10 + digit) rest
    else (number, rest.length + 1)

/-- The value of a number that was written whole and fits 64 bits: itself, except that a minus
sign needs a number from one up to `2 ^ 63`. -/
def wholeValue (negative : Bool) (number : Nat) : Option Value :=
  if !negative then some (.unsigned (UInt64.ofNat number))
  else if number = 0 ∨ Nat.pow 2 63 < number then
    (Binary64.scaled? true number 0).map .decimal
  else some (.signed (-(number : Int)))

/-- The value of a number. Digits that do not fit 64 bits only count as places. -/
def Numeral.value? (numeral : Numeral) : Option Value :=
  let (whole, skipped) := appendDigits 0 numeral.whole
  if skipped = 0 ∧ numeral.fraction = [] ∧ numeral.exponent = none then
    wholeValue numeral.negative whole
  else
    let (significand, unused) := appendDigits whole numeral.fraction
    let places : Int := skipped - (numeral.fraction.length - unused : Nat)
    (Binary64.scaled? numeral.negative significand (places + numeral.exponent.getD 0)).map
      .decimal

end EditBatch.Json
