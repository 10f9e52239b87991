import EditBatch.Offset
set_option autoImplicit false

/-!
# Following offsets through changes

An offset map takes an offset of a document to the place it has after some changes. It keeps
one step for each change and lets an offset go through them in order.

## Main definitions

* `EditBatch.Step` — what one change does to offsets.
* `EditBatch.OffsetMap` — the steps of several changes.
* `EditBatch.OffsetMap.afterInsertion`, `EditBatch.OffsetMap.afterRemoval` — the map with one
  more change. A change of nothing adds no step.
-/

namespace EditBatch

/-- The effect of one change on the offsets of the document it changes. -/
inductive Step where
  /-- At `offset`, `count` characters were put in. Offsets from there on move forward, but not
  beyond the greatest offset. -/
  | shift (offset : Offset) (count : Nat)
  /-- The characters from `start` up to `stop` were taken out. Offsets inside move to
  `start`. -/
  | collapse (start stop : Offset)
  deriving DecidableEq, Repr

/-- Where an offset is after the change. -/
def Step.apply : Step → Offset → Offset
  | .shift place count, offset => if offset < place then offset else offset.advance count
  | .collapse start stop, offset =>
    if offset ≤ start then offset
    else if stop ≤ offset then offset - (stop - start)
    else start

/-- The effect of several changes, one after the other. -/
structure OffsetMap where
  /-- The steps, the first change first. -/
  steps : List Step := []
  deriving DecidableEq, Repr

namespace OffsetMap

/-- The map of no change. -/
def identity : OffsetMap := {}

/-- Where an offset is after all changes. -/
def apply (map : OffsetMap) (offset : Offset) : Offset :=
  map.steps.foldl (fun current step => step.apply current) offset

/-- The map after `count` more characters were put in at `offset` of the changed document. -/
def afterInsertion (map : OffsetMap) (offset : Offset) (count : Nat) : OffsetMap :=
  if 0 < count then ⟨map.steps ++ [.shift offset count]⟩ else map

/-- The map after the characters from `start` up to `stop` of the changed document were taken
out. -/
def afterRemoval (map : OffsetMap) (start stop : Offset) : OffsetMap :=
  if start < stop then ⟨map.steps ++ [.collapse start stop]⟩ else map

/-- Whether nothing was changed. -/
def isIdentity (map : OffsetMap) : Bool := map.steps.isEmpty

@[simp] theorem apply_identity (offset : Offset) : identity.apply offset = offset := rfl

end OffsetMap

end EditBatch
