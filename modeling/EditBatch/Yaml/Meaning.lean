import EditBatch.Binary64
import EditBatch.Text.Digit
set_option autoImplicit false

/-!
# What a plain scalar stands for

A scalar without quotes stands for null, a truth value or a number if it is written like one,
and for its own text otherwise.

## Main definitions

* `EditBatch.Yaml.Meaning` — what a scalar can stand for.
* `EditBatch.Yaml.meaning` — what a scalar without quotes stands for.
* `EditBatch.Yaml.whole?`, `EditBatch.Yaml.decimal?` — whole numbers and decimals.
-/

namespace EditBatch.Yaml

/-- What a scalar stands for. -/
inductive Meaning where
  | null
  | bool (value : Bool)
  /-- A whole number without a minus sign that fits 64 bits. -/
  | unsigned (value : UInt64)
  /-- A whole number with a minus sign that fits 64 bits. -/
  | signed (value : Int)
  /-- A whole number that fits 128 bits, but not 64. -/
  | large
  | decimal (value : Binary64)
  | text
  deriving DecidableEq, Repr

/-- Whether a text is one of the ways to write null. -/
def isNull (text : String) : Bool := ["null", "Null", "NULL", "~"].contains text

/-- The truth value that a text writes. -/
def bool? (text : String) : Option Bool :=
  if ["true", "True", "TRUE"].contains text then some true
  else if ["false", "False", "FALSE"].contains text then some false
  else none

/-- Whether a character is a sign. -/
def isSign (c : Char) : Bool := c == '+' || c == '-'

/-- The text behind a sign in front. -/
def dropSign : List Char → List Char
  | [] => []
  | c :: rest => if isSign c then rest else c :: rest

/-- The text behind a plus sign in front. -/
def dropPlus : List Char → List Char
  | '+' :: rest => rest
  | text => text

/-- Whether a text consists of digits with a zero too many in front, which makes it a text. -/
def hasSpareZero (text : List Char) : Bool :=
  match dropSign text with
  | '0' :: rest => !rest.isEmpty && rest.all Char.isDigit
  | _ => false

/-- The radix and the digits of a number without its sign. -/
def radixOf : List Char → Nat × List Char
  | '0' :: 'x' :: digits => (16, digits)
  | '0' :: 'o' :: digits => (8, digits)
  | '0' :: 'b' :: digits => (2, digits)
  | digits => (10, digits)

/-- The whole number that a text writes, and whether it has a minus sign. -/
def whole? (text : List Char) : Option (Bool × Nat) :=
  if hasSpareZero text then none
  else
    let (negative, unsigned) := match text with
      | '-' :: rest => (true, rest)
      | other => (false, dropPlus other)
    let (radix, digits) := radixOf unsigned
    (natural? radix digits).map fun number => (negative, number)

/-- Digits in front of a text: their number as a text and the rest. -/
def digitsOf (text : List Char) : List Char × List Char :=
  (text.takeWhile Char.isDigit, text.dropWhile Char.isDigit)

/-- The exponent at the end of a decimal. There is none if something else stands there. -/
def exponent? (text : List Char) : Option Int :=
  match text with
  | [] => some 0
  | c :: rest =>
    if c = 'e' ∨ c = 'E' then
      (natural? 10 (dropSign rest)).map fun number =>
        if rest.head? = some '-' then -(number : Int) else number
    else none

/-- The decimal that a text without a sign writes. -/
def unsignedDecimal? (negative : Bool) (text : List Char) : Option Binary64 := do
  let (whole, rest) := digitsOf text
  let (fraction, rest) := match rest with
    | '.' :: rest => digitsOf rest
    | rest => ([], rest)
  let digits ← natural? 10 (whole ++ fraction)
  let exponent ← exponent? rest
  Binary64.ofDecimal? negative digits (exponent - fraction.length)

/-- The decimal that a text writes. Decimals that are too great are texts. -/
def decimal? (text : List Char) : Option Binary64 :=
  let infinite : List (List Char) := [".inf".toList, ".Inf".toList, ".INF".toList]
  if infinite.contains (dropPlus text) then some (.infinite false)
  else if (infinite.map ('-' :: ·)).contains text then some (.infinite true)
  else if [".nan".toList, ".NaN".toList, ".NAN".toList].contains text then some .nan
  else match text with
    | '+' :: rest => unsignedDecimal? false rest
    | '-' :: rest => unsignedDecimal? true rest
    | _ => unsignedDecimal? false text

/-- What a whole number stands for. -/
def wholeMeaning? (negative : Bool) (number : Nat) : Option Meaning :=
  if negative then
    if number ≤ Nat.pow 2 63 then some (.signed (-(number : Int)))
    else if number ≤ Nat.pow 2 127 then some .large
    else none
  else
    if number < UInt64.size then some (.unsigned (UInt64.ofNat number))
    else if number < Nat.pow 2 128 then some .large
    else none

/-- What a scalar without quotes stands for. -/
def meaning (text : String) : Meaning :=
  if text.isEmpty || isNull text then .null
  else match bool? text with
    | some value => .bool value
    | none =>
      let chars := text.toList
      match (whole? chars).bind fun (negative, number) => wholeMeaning? negative number with
      | some found => found
      | none =>
        if hasSpareZero chars then .text
        else match decimal? chars with
          | some value => .decimal value
          | none => .text

/-- The whole number that a scalar is marked to be. -/
def wholeMeaning (text : String) : Option Meaning :=
  (whole? text.toList).bind fun (negative, number) => wholeMeaning? negative number

end EditBatch.Yaml
