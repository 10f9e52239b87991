set_option autoImplicit false

/-!
# The nodes of a YAML document

## Main definitions

* `EditBatch.Yaml.Node` — a scalar, a sequence, a mapping, or a reference to an anchored node.
* `EditBatch.Yaml.Node.weight` — how many marks it takes to describe a node.
-/

namespace EditBatch.Yaml

/-- How a scalar is written. -/
inductive Style where
  | plain | singleQuoted | doubleQuoted | literal | folded
  deriving DecidableEq, Repr

/-- A node, with the tag it is marked with. -/
inductive Node where
  /-- A reference to the node with a given anchor. -/
  | reference (anchor : Nat)
  | scalar (tag : Option String) (style : Style) (text : String)
  | sequence (tag : Option String) (items : List Node)
  | mapping (tag : Option String) (entries : List (Node × Node))
  deriving Repr, Inhabited

namespace Node

/-- The scalar that stands where nothing is written. -/
def empty (tag : Option String) : Node := .scalar tag .plain ""

/-- Whether a node is the scalar that stands where nothing is written. -/
def isEmpty : Node → Bool
  | scalar _ .plain "" => true
  | _ => false

mutual

/-- The number of marks that describe a node: one for a scalar or a reference, and two for the
ends of a collection besides those of its parts. -/
def weight : Node → Nat
  | reference _ => 1
  | scalar .. => 1
  | sequence _ items => weightOfItems items + 2
  | mapping _ entries => weightOfEntries entries + 2

/-- The marks of the items of a sequence. -/
def weightOfItems : List Node → Nat
  | [] => 0
  | item :: rest => weight item + weightOfItems rest

/-- The marks of the entries of a mapping. -/
def weightOfEntries : List (Node × Node) → Nat
  | [] => 0
  | (key, value) :: rest => weight key + weight value + weightOfEntries rest

end

end Node

end EditBatch.Yaml
