set_option autoImplicit false

/-!
# Why an edit is refused

## Main definitions

* `EditBatch.EditError` — the three causes.
* `EditBatch.EditError.message` — the cause in words.
-/

namespace EditBatch

/-- The cause for which an edit or a question about a document is refused. -/
inductive EditError where
  /-- A range whose start lies after its end. -/
  | invalidRange (start stop : Nat)
  /-- The `length` characters at `offset` are not all inside a document of `size` characters. -/
  | invalidOffset (offset length size : Nat)
  /-- The document has only `count` lines, numbered from zero. -/
  | invalidLine (line count : Nat)
  deriving DecidableEq, Repr

/-- The cause in words. -/
def EditError.message : EditError → String
  | .invalidRange start stop => s!"invalid range: start {start} is after end {stop}"
  | .invalidOffset offset length size =>
    s!"invalid offset: {offset}+{length} is outside a document of {size} chars"
  | .invalidLine line count => s!"invalid line: {line} (document has {count} lines)"

end EditBatch
