import EditBatch.Value
import EditBatch.Yaml.Meaning
import EditBatch.Yaml.Scalars
set_option autoImplicit false

/-!
# Writing texts and scripts

A text is written in the simplest style that reads as the same text: without quotes, between
single quotes if it would then read as something else, between double quotes if it has
characters that only escapes can write, and as a block if it has several lines.

## Main definitions

* `EditBatch.Yaml.styleFor` — the style in which a text is written.
* `EditBatch.Yaml.writeText` — a text as a scalar, up to the end of its line.
* `EditBatch.Script.toYaml` — a script as a text.

## Design

What a text allows is told by its characters and the pairs of neighbours among them; the writer
keeps no state but whether it stands behind a break.
-/

namespace EditBatch.Yaml

/-! ## What a text allows -/

/-- Whether a character can be written without an escape. -/
def isPrintable (c : Char) : Bool :=
  c == '\n' || (' ' ≤ c && c ≤ '~')
    || ('\u00a0' ≤ c && c ≤ '\ufffd' && c != '\ufeff') || '\uffff' < c

/-- Whether two neighbours have given properties. -/
def hasPair (first second : Char → Bool) : List Char → Bool
  | a :: b :: rest => (first a && second b) || hasPair first second (b :: rest)
  | _ => false

/-- Whether a text has a character that only an escape can write. -/
def needsEscape (text : List Char) : Bool := !text.all isPrintable

/-- Whether a text goes over several lines. -/
def hasBreak (text : List Char) : Bool := text.any isBreak

/-- Whether a space stands in front of a break, where it would be lost. -/
def hasSpaceBreak (text : List Char) : Bool := hasPair (· == ' ') isBreak text

/-- Whether a space stands behind a break, where it would be lost between quotes. -/
def hasBreakSpace (text : List Char) : Bool := hasPair isBreak (· == ' ') text

/-- Whether the start of a text would read as a mark. -/
def startsWithMark (text : List Char) : Bool :=
  ["---".toList, "...".toList].contains (text.take 3) ||
  match text with
  | [] => false
  | c :: rest =>
    "#,[]\x7b\x7d&*!|>'\"%@`".toList.contains c || ((c == '?' || c == '-') && atGap rest)

/-- Whether a colon or a number sign inside a text would read as a mark. -/
def hasMark (text : List Char) : Bool :=
  text.getLast? == some ':' || hasPair (· == ':') (fun c => isBlank c || isBreak c) text
    || hasPair (fun c => isBlank c || isBreak c) (· == '#') text

/-- Whether a text can be written without quotes, as far as marks and blanks go. -/
def allowsPlain (text : List Char) : Bool :=
  !needsEscape text && !hasBreak text && !startsWithMark text && !hasMark text
    && text.head? != some ' ' && text.getLast? != some ' '

/-- Whether a text can be written between single quotes. -/
def allowsSingle (text : List Char) : Bool :=
  !needsEscape text && !hasSpaceBreak text && !hasBreakSpace text

/-- Whether a text can be written as a block. -/
def allowsBlock (text : List Char) : Bool :=
  !needsEscape text && !hasSpaceBreak text && text.getLast? != some ' '

/-- Whether a text would read as something else without quotes, or looks as if it did. -/
def isAmbiguous (text : String) : Bool := meaning text != .text || hasSpareZero text.toList

/-- The style in which a text is written. -/
def styleFor (text : String) : Style :=
  let chars := text.toList
  if chars.contains '\n' then if allowsBlock chars then .literal else .doubleQuoted
  else if !isAmbiguous text && allowsPlain chars then .plain
  else if allowsSingle chars then .singleQuoted
  else .doubleQuoted

/-! ## The styles -/

/-- The spaces in front of a line. -/
def spaces (count : Nat) : List Char := List.replicate count ' '

/-- Lines between single quotes, where a quote is written twice. Behind a break the next
character and the closing quote are indented. -/
def singleLines (indent : Nat) (broken : Bool) : List Char → List Char
  | [] => if broken then spaces indent else []
  | c :: rest =>
    if isBreak c then c :: singleLines indent true rest
    else (if broken then spaces indent else []) ++ (if c == '\'' then ['\'', '\''] else [c])
      ++ singleLines indent false rest

/-- A text between single quotes. -/
def writeSingle (indent : Nat) (text : List Char) : List Char :=
  '\'' :: singleLines indent false text ++ ['\'']

/-- A number in a given count of hexadecimal digits. -/
def hexDigits (count number : Nat) : List Char :=
  let digits := (Nat.toDigits 16 number).map Char.toUpper
  List.replicate (count - digits.length) '0' ++ digits

/-- The letter that stands for a character behind a backslash. -/
def escapeLetter? : Char → Option Char
  | '\x00' => some '0'
  | '\x07' => some 'a'
  | '\x08' => some 'b'
  | '\t' => some 't'
  | '\n' => some 'n'
  | '\x0b' => some 'v'
  | '\x0c' => some 'f'
  | '\r' => some 'r'
  | '\x1b' => some 'e'
  | '"' => some '"'
  | '\\' => some '\\'
  | '\u0085' => some 'N'
  | '\u2028' => some 'L'
  | '\u2029' => some 'P'
  | _ => none

/-- A character as an escape: by a letter if it has one, otherwise by its number. -/
def writeEscape (c : Char) : List Char :=
  match escapeLetter? c with
  | some letter => ['\\', letter]
  | none =>
    if c.toNat ≤ 0xFF then '\\' :: 'x' :: hexDigits 2 c.toNat
    else if c.toNat ≤ 0xFFFF then '\\' :: 'u' :: hexDigits 4 c.toNat
    else '\\' :: 'U' :: hexDigits 8 c.toNat

/-- A character between double quotes. -/
def writeDoubleChar (c : Char) : List Char :=
  if !isPrintable c || isBreak c || c == '"' || c == '\\' then writeEscape c else [c]

/-- A text between double quotes. -/
def writeDouble (text : List Char) : List Char :=
  '"' :: text.flatMap writeDoubleChar ++ ['"']

/-- The mark for the indentation of a block, which readers could not tell if it started with a
space or a break. -/
def incrementMark (text : List Char) : List Char :=
  if text.head?.any (fun c => c == ' ' || isBreak c) then ['2'] else []

/-- The mark for the breaks at the end of a block: none if there is one break behind other
text. -/
def chompMark (text : List Char) : List Char :=
  match text.reverse with
  | [] => ['-']
  | [last] => if isBreak last then ['+'] else ['-']
  | last :: before :: _ =>
    if !isBreak last then ['-'] else if isBreak before then ['+'] else []

/-- The lines of a block, each indented unless it is empty. -/
def blockLines (indent : Nat) (broken : Bool) : List Char → List Char
  | [] => []
  | c :: rest =>
    if isBreak c then c :: blockLines indent true rest
    else (if broken then spaces indent else []) ++ c :: blockLines indent false rest

/-- A text as a block, whose last line is only ended if the text ends it. -/
def writeBlock (indent : Nat) (text : List Char) : List Char :=
  '|' :: incrementMark text ++ chompMark text ++ '\n' :: blockLines indent true text

/-- A text as a scalar, up to the end of its line. -/
def writeText (indent : Nat) (text : String) : List Char :=
  let chars := text.toList
  match styleFor text with
  | .plain => chars ++ ['\n']
  | .singleQuoted => writeSingle indent chars ++ ['\n']
  | .literal =>
    writeBlock indent chars ++ if chars.getLast?.any isBreak then [] else ['\n']
  | _ => writeDouble chars ++ ['\n']

/-! ## Mappings -/

/-- How much further right the parts of a collection stand. -/
def indentWidth : Nat := 2

/-- An entry of a mapping in a given column, without the spaces in front of it. -/
def writeTextEntry (column : Nat) (name value : String) : List Char :=
  name.toList ++ ':' :: ' ' :: writeText (column + indentWidth) value

/-- An entry with a value that is a single word in itself. -/
def writeWordEntry (name value : String) : List Char :=
  name.toList ++ ':' :: ' ' :: value.toList ++ ['\n']

/-- An argument of an operation as an entry. -/
def writeArgument (column : Nat) : Op.Field × Op.Argument → List Char
  | (field, .number value) => writeWordEntry field.name (toString value.toNat)
  | (field, .text value) => writeTextEntry column field.name value

/-- An operation as an item of a sequence: its name and its arguments. -/
def writeOp (op : Op) : List Char :=
  '-' :: ' ' :: writeWordEntry opKey op.kind.tag
    ++ op.arguments.flatMap fun argument => spaces indentWidth ++ writeArgument indentWidth argument

end EditBatch.Yaml

namespace EditBatch

open Yaml

/-- A script as a text. -/
def Script.toYaml (script : Script) : String :=
  if script.ops.isEmpty then opsKey ++ ": []\n"
  else opsKey ++ ":\n" ++ String.ofList (script.ops.flatMap writeOp)

end EditBatch
