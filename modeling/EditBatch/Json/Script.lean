import EditBatch.Json.Reader
set_option autoImplicit false

/-!
# Scripts in JSON

A script is a map with the list of operations under `edits`, or a list that holds this list.
An operation is a map with its name under `op`, or a list that starts with its name. Names of
operations are judged where they stand, arguments at the end of the operation; the first error
in this order is the one reported.

## Main definitions

* `EditBatch.Json.readOp` — reads one operation.
* `EditBatch.Script.ofJson` — reads a script.
-/

namespace EditBatch.Json

/-- An error of the shape of a value as an error of the text. -/
def shaped {α : Type} (value : Except ShapeError α) : Except Error α :=
  value.mapError .misshapen

/-- How deep lists and maps nest inside an operation: 128 in all, of which the script, its
list of operations and the operation take three. -/
def nestingLimit : Nat := 125

/-- Reads the name of an operation. -/
def readOpName (text : List Char) : Except Error (Op.Kind × List Char) :=
  match skipBlanks text with
  | [] => .error .truncated
  | '"' :: rest => do
    let (name, rest) ← readText rest
    return (← shaped (Op.kindOfName (String.ofList name)), rest)
  | other => .error (mismatch .opName other)

/-- Reads an operation that is a map, up to its end. The name may stand anywhere, once. -/
def readOpEntries (fuel : Nat) (first : Bool) (kind : Option Op.Kind)
    (entries : List (Value × Value)) (text : List Char) : Except Error (Op × List Char) :=
  match fuel with
  | 0 => .error .truncated
  | fuel + 1 => do
    let (more, rest) ← nextKey first text
    if more then
      let (key, rest) ← readText rest
      if String.ofList key = opKey then
        if kind.isSome then throw (.misshapen (.duplicate opKey))
        let (kind, rest) ← readOpName (← expectColon rest)
        readOpEntries fuel false (some kind) entries rest
      else
        let (value, rest) ← readValue fuel nestingLimit (← expectColon rest)
        readOpEntries fuel false kind (entries ++ [(.text (String.ofList key), value)]) rest
    else
      match kind with
      | none => throw (.misshapen (.missing opKey))
      | some kind => return (← shaped (Op.ofMap kind entries), rest)

/-- Reads one operation. -/
def readOp (fuel : Nat) (text : List Char) : Except Error (Op × List Char) :=
  match skipBlanks text with
  | [] => .error .truncated
  | '\x7b' :: rest => readOpEntries fuel true none [] rest
  | '[' :: rest => do
    let (more, rest) ← nextItem true rest
    if more then
      let (kind, rest) ← readOpName rest
      let (items, rest) ← readItems fuel nestingLimit false rest
      return (← shaped (Op.ofList kind items), rest)
    else throw (.misshapen (.missing opKey))
  | other => .error (mismatch .op other)

/-- Reads operations up to the end of their list. -/
def readOps (fuel : Nat) (first : Bool) (text : List Char) :
    Except Error (List Op × List Char) :=
  match fuel with
  | 0 => .error .truncated
  | fuel + 1 => do
    let (more, rest) ← nextItem first text
    if more then
      let (op, rest) ← readOp fuel rest
      let (ops, rest) ← readOps fuel false rest
      return (op :: ops, rest)
    else return ([], rest)

/-- Reads a list of operations. -/
def readOpList (fuel : Nat) (text : List Char) : Except Error (List Op × List Char) :=
  match skipBlanks text with
  | [] => .error .truncated
  | '[' :: rest => readOps fuel true rest
  | other => .error (mismatch .ops other)

/-- Reads a script that is a map, up to its end. Unknown entries are skipped. -/
def readScriptEntries (fuel : Nat) (first : Bool) (ops : Option (List Op)) (text : List Char) :
    Except Error (Script × List Char) :=
  match fuel with
  | 0 => .error .truncated
  | fuel + 1 => do
    let (more, rest) ← nextKey first text
    if more then
      let (key, rest) ← readText rest
      if String.ofList key = opsKey then
        if ops.isSome then throw (.misshapen (.duplicate opsKey))
        let (ops, rest) ← readOpList fuel (← expectColon rest)
        readScriptEntries fuel false (some ops) rest
      else
        readScriptEntries fuel false ops (← skipValue fuel (← expectColon rest))
    else return (⟨ops.getD []⟩, rest)

/-- Reads a script that is a list, up to its end. -/
def readScriptItems (fuel : Nat) (text : List Char) : Except Error (Script × List Char) := do
  let (more, rest) ← nextItem true text
  if more then
    let (ops, rest) ← readOpList fuel rest
    match skipBlanks rest with
    | [] => throw .truncated
    | ']' :: rest => return (⟨ops⟩, rest)
    | _ => throw .malformed
  else return ({}, rest)

end EditBatch.Json

namespace EditBatch

open Json

/-- Reads a script. Only blanks may follow it. -/
def Script.ofJson (text : String) : Except Json.Error Script := do
  let text := text.toList
  let fuel := fuelFor text
  let (script, rest) ← match skipBlanks text with
    | [] => .error .truncated
    | '\x7b' :: rest => readScriptEntries fuel true none rest
    | '[' :: rest => readScriptItems fuel rest
    | other => .error (mismatch .script other)
  if (skipBlanks rest).isEmpty then return script else throw .malformed

end EditBatch
