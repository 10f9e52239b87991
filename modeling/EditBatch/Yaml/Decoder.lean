import EditBatch.Value
import EditBatch.Yaml.Reader
import EditBatch.Yaml.Meaning
set_option autoImplicit false

/-!
# From nodes to data

Nodes are turned into data by decoders, which follow aliases to the nodes they refer to. There
is a limit on how often this may be done in a document, and on how deep nodes nest where their
contents matter.

## Main definitions

* `EditBatch.Yaml.Decoder` — a computation that may follow a number of aliases.
* `EditBatch.Yaml.follow` — the node itself, or the one that it refers to.
* `EditBatch.Yaml.scalarText` — the text of a scalar, whatever it stands for.
* `EditBatch.Yaml.readValue` — what a node stands for.
-/

namespace EditBatch.Yaml

/-- A computation that may fail, with the number of aliases that may still be followed. -/
abbrev Decoder := StateT Nat Option

/-- The anchored nodes of a document. -/
abbrev Anchored := List (Nat × Node)

/-- How many aliases may be followed for each mark of a document. -/
def followsPerMark : Nat := 100

/-- Runs a decoder on the node of a document. -/
def Decoder.decode? {α : Type} (decoder : Node → Decoder α) (root : Node) : Option α :=
  (decoder root).run' (followsPerMark * root.weight)

/-- The node itself, or the one that it refers to. -/
def follow (anchored : Anchored) : Node → Decoder Node
  | .reference anchor => do
    let left ← get
    if left = 0 then failure
    set (left - 1)
    match anchored.lookup anchor with
    | some node => return node
    | none => failure
  | node => return node

/-- The text of a scalar, whatever it stands for. -/
def scalarText (anchored : Anchored) (node : Node) : Decoder String := do
  match ← follow anchored node with
  | .scalar _ _ text => return text
  | _ => failure

/-- Whether a tag is one of the application's own, which nothing here understands. -/
def isLocalTag (tag : Option String) : Bool := tag.any (·.startsWith "!")

/-- The tags with a meaning. -/
def nullTag : String := "tag:yaml.org,2002:null"

@[inherit_doc nullTag] def boolTag : String := "tag:yaml.org,2002:bool"

@[inherit_doc nullTag] def intTag : String := "tag:yaml.org,2002:int"

@[inherit_doc nullTag] def floatTag : String := "tag:yaml.org,2002:float"

/-- The value of a text with a given meaning. Numbers beyond 64 bits have none. -/
def Meaning.value? (text : String) : Meaning → Option Value
  | .null => some .null
  | .bool value => some (.bool value)
  | .unsigned value => some (.unsigned value)
  | .signed value => some (.signed value)
  | .large => none
  | .decimal value => some (.decimal value)
  | .text => some (.text text)

/-- The value of a text that a tag says to be of some kind. -/
def taggedValue? (tag text : String) : Option Value :=
  if tag = boolTag then (bool? text).map .bool
  else if tag = intTag then (wholeMeaning text).bind (Meaning.value? text)
  else if tag = floatTag then (decimal? text.toList).map .decimal
  else if tag = nullTag then if isNull text then some .null else none
  else some (.text text)

/-- The value of a scalar. Only without quotes and tags does its text decide its kind. -/
def scalarValue? (tag : Option String) (style : Style) (text : String) : Option Value :=
  if isLocalTag tag then none
  else match tag with
    | some tag => taggedValue? tag text
    | none => if style = .plain then (meaning text).value? text else some (.text text)

/-- What a node stands for. Collections may nest `depth` deep. -/
def readValue (anchored : Anchored) : Nat → Node → Decoder Value
  | 0, node => do
    match ← follow anchored node with
    | .scalar tag style text => (scalarValue? tag style text : Option Value)
    | _ => failure
  | depth + 1, node => do
    match ← follow anchored node with
    | .scalar tag style text => (scalarValue? tag style text : Option Value)
    | .sequence tag items =>
      if isLocalTag tag then failure
      return .list (← items.mapM (readValue anchored depth))
    | .mapping tag entries =>
      if isLocalTag tag then failure
      return .map (← entries.mapM fun (key, value) => do
        return (← readValue anchored depth key, ← readValue anchored depth value))
    | .reference _ => failure

end EditBatch.Yaml
