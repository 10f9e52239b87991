import EditBatch.Json.Number
import EditBatch.Text.Bytes
import EditBatch.Text.Digit
set_option autoImplicit false

/-!
# Texts in JSON

A text stands between quotes. A backslash starts an escape; characters below the space must be
escaped. Characters beyond 16 bits are escaped in two halves, which have to belong together
where the text is read, but not where it is skipped.

## Main definitions

* `EditBatch.Json.readText` — reads a text behind its opening quote.
* `EditBatch.Json.skipText` — skips one.
-/

namespace EditBatch.Json

/-- The number written by four hexadecimal digits at the front of a text. If fewer than four
bytes are left, the text ends too early, whatever they are. -/
def hexUnit (text : List Char) : Except Error Nat :=
  match (text.take 4).mapM (digit? 16) with
  | some [a, b, c, d] => .ok (((a * 16 + b) * 16 + c) * 16 + d)
  | _ => if byteLength text < 4 then .error .truncated else .error .malformed

/-- The characters that a backslash and a letter stand for. -/
def shortEscape? : Char → Option Char
  | '"' => some '"'
  | '\\' => some '\\'
  | '/' => some '/'
  | 'b' => some '\x08'
  | 'f' => some '\x0c'
  | 'n' => some '\n'
  | 'r' => some '\r'
  | 't' => some '\t'
  | _ => none

/-- The first halves of escaped pairs. -/
def IsHighHalf (unit : Nat) : Prop := 0xD800 ≤ unit ∧ unit ≤ 0xDBFF

/-- The second halves of escaped pairs. -/
def IsLowHalf (unit : Nat) : Prop := 0xDC00 ≤ unit ∧ unit ≤ 0xDFFF

instance (unit : Nat) : Decidable (IsHighHalf unit) := inferInstanceAs (Decidable (_ ∧ _))

instance (unit : Nat) : Decidable (IsLowHalf unit) := inferInstanceAs (Decidable (_ ∧ _))

/-- The character of two halves. -/
def ofHalves (high low : Nat) : Char :=
  Char.ofNat (0x10000 + (high - 0xD800) * 0x400 + (low - 0xDC00))

/-- The second half of a pair, escaped right behind the first. -/
def lowHalf (text : List Char) : Except Error Nat :=
  match text with
  | [] => .error .truncated
  | ['\\'] => .error .truncated
  | '\\' :: 'u' :: rest => do
    let unit ← hexUnit rest
    if IsLowHalf unit then return unit else throw .malformed
  | _ => .error .malformed

/-- The character of an escape, and the number of characters it takes behind its backslash. -/
def readEscape (text : List Char) : Except Error (Char × Nat) :=
  match text with
  | [] => .error .truncated
  | 'u' :: rest => do
    let unit ← hexUnit rest
    if IsLowHalf unit then throw .malformed
    else if IsHighHalf unit then return (ofHalves unit (← lowHalf (rest.drop 4)), 11)
    else return (Char.ofNat unit, 5)
  | c :: _ =>
    match shortEscape? c with
    | some escaped => .ok (escaped, 1)
    | none => .error .malformed

/-- Reads a text behind its opening quote, and gives what follows its closing quote. -/
def readText (text : List Char) : Except Error (List Char × List Char) :=
  match text with
  | [] => .error .truncated
  | '"' :: rest => .ok ([], rest)
  | '\\' :: rest =>
    match readEscape rest with
    | .error cause => .error cause
    | .ok (c, length) => do
      let (read, rest) ← readText (rest.drop length)
      return (c :: read, rest)
  | c :: rest =>
    if c < ' ' then .error .malformed
    else do
      let (read, rest) ← readText rest
      return (c :: read, rest)
termination_by text.length

/-- The number of characters that an escape takes behind its backslash. -/
def skipEscape (text : List Char) : Except Error Nat :=
  match text with
  | [] => .error .truncated
  | 'u' :: rest => do
    let _ ← hexUnit rest
    return 5
  | c :: _ => if (shortEscape? c).isSome then .ok 1 else .error .malformed

/-- Skips a text behind its opening quote, and gives what follows its closing quote. -/
def skipText (text : List Char) : Except Error (List Char) :=
  match text with
  | [] => .error .truncated
  | '"' :: rest => .ok rest
  | '\\' :: rest =>
    match skipEscape rest with
    | .error cause => .error cause
    | .ok length => skipText (rest.drop length)
  | c :: rest => if c < ' ' then .error .malformed else skipText rest
termination_by text.length

end EditBatch.Json
