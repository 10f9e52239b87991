import EditBatch.Json.Text
set_option autoImplicit false

/-!
# Values in JSON

Values are read from the front of a text. Lists and maps nest up to a limit where they are
read; skipped ones may nest without limit, and their numbers may be of any size.

## Main definitions

* `EditBatch.Json.nextItem`, `EditBatch.Json.nextKey` — what comes next in a list or a map.
* `EditBatch.Json.readScalar`, `EditBatch.Json.readValue` — read a value.
* `EditBatch.Json.skipValue` — skips one.
* `EditBatch.Json.mismatch` — the error for a value of another kind than expected.
-/

namespace EditBatch.Json

/-- Whether a character may stand between two parts of a text. -/
def isBlank (c : Char) : Bool := c == ' ' || c == '\n' || c == '\t' || c == '\r'

/-- The text behind the blanks at its front. -/
def skipBlanks (text : List Char) : List Char := text.dropWhile isBlank

/-- Takes given characters from the front of a text. -/
def expectChars (expected text : List Char) : Except Error (List Char) :=
  match expected, text with
  | [], rest => .ok rest
  | _ :: _, [] => .error .truncated
  | e :: expected, c :: rest => if c = e then expectChars expected rest else .error .malformed

/-- Finds what comes next in a list: an item, or the end. Gives whether it is an item, and the
text from the item or behind the end. -/
def nextItem (first : Bool) (text : List Char) : Except Error (Bool × List Char) :=
  match skipBlanks text with
  | [] => .error .truncated
  | ']' :: rest => .ok (false, rest)
  | ',' :: rest =>
    if first then .ok (true, ',' :: rest)
    else
      match skipBlanks rest with
      | [] => .error .truncated
      | ']' :: _ => .error .malformed
      | item => .ok (true, item)
  | item => if first then .ok (true, item) else .error .malformed

/-- Finds what comes next in a map: a key, or the end. Gives whether it is a key, and the text
behind the opening quote of the key or behind the end. -/
def nextKey (first : Bool) (text : List Char) : Except Error (Bool × List Char) :=
  match skipBlanks text with
  | [] => .error .truncated
  | '\x7d' :: rest => .ok (false, rest)
  | '"' :: rest => if first then .ok (true, rest) else .error .malformed
  | ',' :: rest =>
    if first then .error .malformed
    else
      match skipBlanks rest with
      | [] => .error .truncated
      | '"' :: rest => .ok (true, rest)
      | _ => .error .malformed
  | _ => .error .malformed

/-- The text behind the colon that follows a key. -/
def expectColon (text : List Char) : Except Error (List Char) :=
  match skipBlanks text with
  | [] => .error .truncated
  | ':' :: rest => .ok rest
  | _ => .error .malformed

/-- Reads a number, its sign given. -/
def readNumber (negative : Bool) (text : List Char) : Except Error (Value × List Char) := do
  let (numeral, rest) ← scanNumeral .truncated negative text
  match numeral.value? with
  | some value => return (value, rest)
  | none => throw .malformed

/-- Reads a value that is neither a list nor a map. -/
def readScalar (text : List Char) : Except Error (Value × List Char) :=
  match text with
  | [] => .error .truncated
  | 'n' :: rest => return (.null, ← expectChars ['u', 'l', 'l'] rest)
  | 't' :: rest => return (.bool true, ← expectChars ['r', 'u', 'e'] rest)
  | 'f' :: rest => return (.bool false, ← expectChars ['a', 'l', 's', 'e'] rest)
  | '"' :: rest => do
    let (read, rest) ← readText rest
    return (.text (String.ofList read), rest)
  | '-' :: rest => readNumber true rest
  | c :: _ => if c.isDigit then readNumber false text else .error .malformed

/-- The error for a value at the front of a text where another kind of value is expected. A
scalar has to be JSON for this to be said of it. -/
def mismatch (expected : Expected) (text : List Char) : Error :=
  match text with
  | '[' :: _ => .misshapen (.wrongType .list expected)
  | '\x7b' :: _ => .misshapen (.wrongType .map expected)
  | _ =>
    match readScalar text with
    | .ok (value, _) => .misshapen (.wrongType value.found expected)
    | .error cause => cause

mutual

/-- Reads a value. Lists and maps may nest less than `depth` deep. Each step takes one unit of
`fuel`; twice the length of the text is enough. -/
def readValue (fuel depth : Nat) (text : List Char) : Except Error (Value × List Char) :=
  match fuel with
  | 0 => .error .truncated
  | fuel + 1 =>
    match skipBlanks text with
    | '[' :: rest =>
      if depth ≤ 1 then .error .malformed
      else do
        let (items, rest) ← readItems fuel (depth - 1) true rest
        return (.list items, rest)
    | '\x7b' :: rest =>
      if depth ≤ 1 then .error .malformed
      else do
        let (entries, rest) ← readEntries fuel (depth - 1) true rest
        return (.map entries, rest)
    | scalar => readScalar scalar

/-- Reads the items of a list up to its end. -/
def readItems (fuel depth : Nat) (first : Bool) (text : List Char) :
    Except Error (List Value × List Char) :=
  match fuel with
  | 0 => .error .truncated
  | fuel + 1 => do
    let (more, rest) ← nextItem first text
    if more then
      let (item, rest) ← readValue fuel depth rest
      let (items, rest) ← readItems fuel depth false rest
      return (item :: items, rest)
    else return ([], rest)

/-- Reads the entries of a map up to its end. -/
def readEntries (fuel depth : Nat) (first : Bool) (text : List Char) :
    Except Error (List (Value × Value) × List Char) :=
  match fuel with
  | 0 => .error .truncated
  | fuel + 1 => do
    let (more, rest) ← nextKey first text
    if more then
      let (key, rest) ← readText rest
      let (value, rest) ← readValue fuel depth (← expectColon rest)
      let (entries, rest) ← readEntries fuel depth false rest
      return ((.text (String.ofList key), value) :: entries, rest)
    else return ([], rest)

end

mutual

/-- Skips a value. -/
def skipValue (fuel : Nat) (text : List Char) : Except Error (List Char) :=
  match fuel with
  | 0 => .error .truncated
  | fuel + 1 =>
    match skipBlanks text with
    | [] => .error .truncated
    | '[' :: rest => skipItems fuel true rest
    | '\x7b' :: rest => skipEntries fuel true rest
    | '"' :: rest => skipText rest
    | '-' :: rest => return (← scanNumeral .malformed true rest).2
    | c :: rest =>
      if c.isDigit then return (← scanNumeral .malformed false (c :: rest)).2
      else return (← readScalar (c :: rest)).2

/-- Skips the items of a list and its end. -/
def skipItems (fuel : Nat) (first : Bool) (text : List Char) : Except Error (List Char) :=
  match fuel with
  | 0 => .error .truncated
  | fuel + 1 => do
    let (more, rest) ← nextItem first text
    if more then skipItems fuel false (← skipValue fuel rest) else return rest

/-- Skips the entries of a map and its end. -/
def skipEntries (fuel : Nat) (first : Bool) (text : List Char) : Except Error (List Char) :=
  match fuel with
  | 0 => .error .truncated
  | fuel + 1 => do
    let (more, rest) ← nextKey first text
    if more then
      let rest ← expectColon (← skipText rest)
      skipEntries fuel false (← skipValue fuel rest)
    else return rest

end

/-- Enough fuel to read any part of a text. -/
def fuelFor (text : List Char) : Nat := 2 * text.length + 2

end EditBatch.Json
