import EditBatch.Binary64
import EditBatch.Script
set_option autoImplicit false

/-!
# Data of no fixed shape, and operations read from it

The readers of the two written formats deliver each operation as a value: a scalar, a list or a
map. What makes a value an operation is decided here, for both formats in the same way.

## Main definitions

* `EditBatch.Value` — a scalar, a list or a map.
* `EditBatch.ShapeError` — why a value is not what it should be.
* `EditBatch.Op.ofMap`, `EditBatch.Op.ofList` — the operation that the entries of a map or the
  items of a list describe.
-/

namespace EditBatch

/-- A scalar, a list or a map. -/
inductive Value where
  | null
  | bool (value : Bool)
  /-- A whole number written without a sign. -/
  | unsigned (value : UInt64)
  /-- A whole number written with a minus sign. -/
  | signed (value : Int)
  | decimal (value : Binary64)
  | text (value : String)
  | list (items : List Value)
  | map (entries : List (Value × Value))
  deriving Repr

/-- What a value is, as told to the user: a scalar with its content, or that it is a list or a
map. -/
inductive Found where
  | null
  | bool (value : Bool)
  | whole (value : Int)
  | decimal (value : Binary64)
  | text (value : String)
  | list
  | map
  deriving DecidableEq, Repr

/-- What a value is. -/
def Value.found : Value → Found
  | null => .null
  | bool value => .bool value
  | unsigned value => .whole value.toNat
  | signed value => .whole value
  | decimal value => .decimal value
  | text value => .text value
  | list _ => .list
  | map _ => .map

/-- What a value should have been. -/
inductive Expected where
  /-- A whole number that fits an offset. -/
  | offset
  | text
  /-- The name of an operation. -/
  | opName
  /-- The name of an argument. -/
  | argumentName
  /-- An operation. -/
  | op
  /-- A list of operations. -/
  | ops
  | script
  deriving DecidableEq, Repr

/-- Why a value is not what it should be. -/
inductive ShapeError where
  /-- It is of another kind. -/
  | wrongType (found : Found) (expected : Expected)
  /-- It is of the right kind, but out of range. -/
  | wrongValue (found : Found) (expected : Expected)
  /-- A list that should be an operation has too few items behind the name. -/
  | tooFewItems (count : Nat) (kind : Op.Kind)
  /-- A list that should be an operation has too many items behind the name. -/
  | tooManyItems (count expected : Nat)
  /-- An operation has a name that none has. -/
  | unknownOp (name : String)
  /-- A name is missing. -/
  | missing (name : String)
  /-- A name stands twice. -/
  | duplicate (name : String)
  deriving DecidableEq, Repr

/-- The name under which the kind of an operation is written. -/
def opKey : String := "op"

/-- The name under which the operations of a script are written. -/
def opsKey : String := "edits"

namespace Op

/-- The arguments of an operation read so far. -/
structure Slots where
  offset : Option UInt64 := none
  start : Option UInt64 := none
  stop : Option UInt64 := none
  line : Option UInt64 := none
  text : Option String := none
  deriving DecidableEq, Repr

/-- A value as a number. -/
def readNumber : Value → Except ShapeError UInt64
  | .unsigned value => .ok value
  | .signed value =>
    if 0 ≤ value then .ok (UInt64.ofNat value.toNat)
    else .error (.wrongValue (.whole value) .offset)
  | other => .error (.wrongType other.found .offset)

/-- A value as a text. Nothing is turned into text that is none. -/
def readText : Value → Except ShapeError String
  | .text value => .ok value
  | other => .error (.wrongType other.found .text)

/-- An argument that must not have been read before. -/
def fill {α : Type} (field : Field) (slot : Option α) (value : Except ShapeError α) :
    Except ShapeError (Option α) :=
  match slot with
  | some _ => .error (.duplicate field.name)
  | none => value.map some

/-- The arguments with one more. -/
def Slots.put (slots : Slots) (field : Field) (value : Value) : Except ShapeError Slots :=
  match field with
  | .offset => return { slots with offset := ← fill field slots.offset (readNumber value) }
  | .start => return { slots with start := ← fill field slots.start (readNumber value) }
  | .stop => return { slots with stop := ← fill field slots.stop (readNumber value) }
  | .line => return { slots with line := ← fill field slots.line (readNumber value) }
  | .text => return { slots with text := ← fill field slots.text (readText value) }

/-- An argument that must have been read. -/
def need {α : Type} (field : Field) (slot : Option α) : Except ShapeError α :=
  match slot with
  | some value => .ok value
  | none => .error (.missing field.name)

/-- The operation of a kind with the arguments read. The first one missing is reported. -/
def ofSlots (slots : Slots) : Kind → Except ShapeError Op
  | .insert => return .insert (← need .offset slots.offset) (← need .text slots.text)
  | .delete => return .delete (← need .start slots.start) (← need .stop slots.stop)
  | .deleteText => return .deleteText (← need .offset slots.offset) (← need .text slots.text)
  | .replace => do
    let start ← need .start slots.start
    return .replace start (← need .stop slots.stop) (← need .text slots.text)
  | .moveCaret => return .moveCaret (← need .offset slots.offset)
  | .deleteLine => return .deleteLine (← need .line slots.line)
  | .deleteLineAt => return .deleteLineAt (← need .offset slots.offset)

/-- The argument that a key stands for: the one with that name, or the one with that number in
the order of writing. Other names and numbers stand for none, and other keys are refused. -/
def fieldOfKey (kind : Kind) : Value → Except ShapeError (Option Field)
  | .text name => .ok (kind.fields.find? fun field => field.name == name)
  | .unsigned index => .ok kind.fields[index.toNat]?
  | other => .error (.wrongType other.found .argumentName)

/-- Reads the arguments of an operation from entries in order. -/
def readEntries (kind : Kind) (slots : Slots) : List (Value × Value) → Except ShapeError Slots
  | [] => .ok slots
  | (key, value) :: rest => do
    match ← fieldOfKey kind key with
    | none => readEntries kind slots rest
    | some field => readEntries kind (← slots.put field value) rest

/-- The operation of a kind whose arguments are entries of a map. -/
def ofMap (kind : Kind) (entries : List (Value × Value)) : Except ShapeError Op := do
  ofSlots (← readEntries kind {} entries) kind

/-- Reads the arguments of an operation from items in the order of writing. -/
def readItems (kind : Kind) (slots : Slots) : List Field → List Value → Except ShapeError Slots
  | [], _ => .ok slots
  | missing@(_ :: _), [] => .error (.tooFewItems (kind.fields.length - missing.length) kind)
  | field :: fields, item :: items => do readItems kind (← slots.put field item) fields items

/-- The operation of a kind whose arguments are the items of a list. -/
def ofList (kind : Kind) (items : List Value) : Except ShapeError Op := do
  let slots ← readItems kind {} kind.fields items
  if kind.fields.length < items.length then
    throw (.tooManyItems items.length kind.fields.length)
  ofSlots slots kind

/-- The kind of operation that has a given name in scripts. -/
def kindOfName (name : String) : Except ShapeError Kind :=
  match Kind.ofTag? name with
  | some kind => .ok kind
  | none => .error (.unknownOp name)

end Op

end EditBatch
