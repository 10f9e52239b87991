import EditBatch.Binary64.Shortest
import EditBatch.Text.Quoted
import EditBatch.Value
set_option autoImplicit false

/-!
# Errors of shape in words

## Main definitions

* `EditBatch.ShapeError.message` — an error of shape in words.
-/

namespace EditBatch

/-- What was found, in words. -/
def Found.message : Found → String
  | null => "null"
  | bool value => s!"boolean `{value}`"
  | whole value => s!"integer `{value}`"
  | decimal value => s!"floating point `{value.render}`"
  | text value => s!"string {quoted value}"
  | list => "sequence"
  | map => "map"

/-- What was expected, in words. -/
def Expected.message : Expected → String
  | offset => "usize"
  | text => "a string"
  | opName => "variant identifier"
  | argumentName => "field identifier"
  | op => "internally tagged enum ScriptOp"
  | ops => "a sequence"
  | script => "struct EditScript"

/-- A number of elements, in words. -/
def elementCount (count : Nat) : String :=
  if count = 1 then "1 element" else s!"{count} elements"

/-- The error in words. -/
def ShapeError.message : ShapeError → String
  | wrongType found expected => s!"invalid type: {found.message}, expected {expected.message}"
  | wrongValue found expected => s!"invalid value: {found.message}, expected {expected.message}"
  | tooFewItems count kind =>
    s!"invalid length {count}, expected struct variant ScriptOp::{kind.title} with "
      ++ elementCount kind.fields.length
  | tooManyItems count expected =>
    s!"invalid length {count}, expected {elementCount expected} in sequence"
  | unknownOp name =>
    let names := Op.Kind.all.map fun kind => s!"`{kind.tag}`"
    s!"unknown variant `{name}`, expected one of " ++ ", ".intercalate names
  | missing name => s!"missing field `{name}`"
  | duplicate name => s!"duplicate field `{name}`"

end EditBatch
