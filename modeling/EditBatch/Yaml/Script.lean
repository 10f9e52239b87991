import EditBatch.Yaml.Decoder
set_option autoImplicit false

/-!
# Scripts in YAML

A script is a mapping with the sequence of operations under `edits`. An operation is a mapping
with its name under `op`, or a sequence that starts with its name. Where nothing is written
there are no operations, or there is no script, which comes to the same.

## Main definitions

* `EditBatch.Yaml.readOp` — the operation of a node.
* `EditBatch.Script.ofYaml?` — reads a script.
-/

namespace EditBatch.Yaml

/-- How deep collections nest inside an operation: 128 in all, of which the script, its
sequence of operations and the operation take three. -/
def nestingLimit : Nat := 125

/-- A value that must have the right shape. -/
def wellShaped {α : Type} (value : Except ShapeError α) : Decoder α :=
  match value with
  | .ok value => return value
  | .error _ => failure

/-- Reads the entries of an operation. The name may stand anywhere, once. -/
def readOpEntries (anchored : Anchored) (kind : Option Op.Kind) (entries : List (Value × Value)) :
    List (Node × Node) → Decoder Op
  | [] =>
    match kind with
    | some kind => wellShaped (Op.ofMap kind entries)
    | none => failure
  | (key, value) :: rest => do
    let key ← readValue anchored nestingLimit key
    let isName := match key with
      | .text name => name == opKey
      | _ => false
    if isName then
      if kind.isSome then failure
      let kind ← wellShaped (Op.kindOfName (← scalarText anchored value))
      readOpEntries anchored (some kind) entries rest
    else
      let value ← readValue anchored nestingLimit value
      readOpEntries anchored kind (entries ++ [(key, value)]) rest

/-- The operation of a node. -/
def readOp (anchored : Anchored) (node : Node) : Decoder Op := do
  match ← follow anchored node with
  | .mapping tag entries =>
    if isLocalTag tag then failure
    readOpEntries anchored none [] entries
  | .sequence tag (name :: items) =>
    if isLocalTag tag then failure
    let kind ← wellShaped (Op.kindOfName (← scalarText anchored name))
    wellShaped (Op.ofList kind (← items.mapM (readValue anchored nestingLimit)))
  | _ => failure

/-- The operations of a node. -/
def readOps (anchored : Anchored) (node : Node) : Decoder (List Op) := do
  match ← follow anchored node with
  | .sequence _ items => items.mapM (readOp anchored)
  | other => if other.isEmpty then return [] else failure

/-- Reads the entries of a script. Unknown ones are skipped. -/
def readScriptEntries (anchored : Anchored) (ops : Option (List Op)) :
    List (Node × Node) → Decoder Script
  | [] => return ⟨ops.getD []⟩
  | (key, value) :: rest => do
    if (← scalarText anchored key) = opsKey then
      if ops.isSome then failure
      readScriptEntries anchored (some (← readOps anchored value)) rest
    else readScriptEntries anchored ops rest

/-- The script of a node. -/
def readScript (anchored : Anchored) (node : Node) : Decoder Script := do
  match ← follow anchored node with
  | .mapping _ entries => readScriptEntries anchored none entries
  | other => if other.isEmpty then return {} else failure

end EditBatch.Yaml

namespace EditBatch

open Yaml

/-- Reads a script. -/
def Script.ofYaml? (text : String) : Option Script := do
  let contents ← readDocument text
  match contents.root with
  | none => return {}
  | some root => Decoder.decode? (readScript contents.anchored) root

end EditBatch
