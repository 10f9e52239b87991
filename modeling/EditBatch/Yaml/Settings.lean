import EditBatch.Settings
import EditBatch.Yaml.Decoder
import EditBatch.Yaml.Writer
set_option autoImplicit false

/-!
# Settings in YAML

Settings are a mapping. What is not in it has its default, and unknown entries are skipped.

## Main definitions

* `EditBatch.Settings.ofYaml?` — reads settings.
* `EditBatch.Settings.toYaml` — writes all settings, defaults as well.
-/

namespace EditBatch.Yaml

/-- The names of the settings. -/
def markerKey : String := "cursor_marker"

@[inherit_doc markerKey] def backendKey : String := "backend"

@[inherit_doc markerKey] def loggingKey : String := "file_logging"

/-- The marker of a node: none where nothing or null is written, otherwise the text of the
scalar, whatever it would stand for. -/
def readMarker (anchored : Anchored) (node : Node) : Decoder (Option String) := do
  match ← follow anchored node with
  | .scalar tag style text =>
    if style ≠ .plain then return some text
    else match tag with
      | none => return if text.isEmpty || isNull text then none else some text
      | some tag =>
        if tag ≠ nullTag then return some text
        else if isNull text then return none
        else failure
  | _ => failure

/-- The backend of a node: the one named by the scalar, or by its tag if nothing else is
written. -/
def readBackend (anchored : Anchored) (node : Node) : Decoder Backend := do
  match ← follow anchored node with
  | .scalar tag style text =>
    match tag.filter (·.startsWith "!") with
    | none => (Backend.ofName? text : Option Backend)
    | some tag =>
      if style = .plain && (text.isEmpty || isNull text) then
        (Backend.ofName? (tag.drop 1).toString : Option Backend)
      else failure
  | _ => failure

/-- The truth value of a node. A block may be one if its tag says so. -/
def readSwitch (anchored : Anchored) (node : Node) : Decoder Bool := do
  match ← follow anchored node with
  | .scalar tag style text =>
    if style = .plain || (style = .literal && tag = some boolTag) then
      (bool? text : Option Bool)
    else failure
  | _ => failure

/-- The settings read so far. -/
structure SettingsSlots where
  cursorMarker : Option (Option String) := none
  backend : Option Backend := none
  fileLogging : Option Bool := none
  deriving DecidableEq, Repr

/-- Something read that must not have been read before. -/
def once {α : Type} (slot : Option α) (read : Decoder α) : Decoder (Option α) := do
  if slot.isSome then failure
  return some (← read)

/-- Reads the entries of settings. -/
def readSettingsEntries (anchored : Anchored) (slots : SettingsSlots) :
    List (Node × Node) → Decoder SettingsSlots
  | [] => return slots
  | (key, value) :: rest => do
    let name ← scalarText anchored key
    let slots ←
      if name = markerKey then
        pure { slots with cursorMarker := ← once slots.cursorMarker (readMarker anchored value) }
      else if name = backendKey then
        pure { slots with backend := ← once slots.backend (readBackend anchored value) }
      else if name = loggingKey then
        pure { slots with fileLogging := ← once slots.fileLogging (readSwitch anchored value) }
      else pure slots
    readSettingsEntries anchored slots rest

/-- The settings of a node. -/
def readSettings (anchored : Anchored) (node : Node) : Decoder Settings := do
  match ← follow anchored node with
  | .mapping _ entries =>
    let slots ← readSettingsEntries anchored {} entries
    let defaults : Settings := {}
    return {
      cursorMarker := slots.cursorMarker.getD defaults.cursorMarker
      backend := slots.backend.getD defaults.backend
      fileLogging := slots.fileLogging.getD defaults.fileLogging }
  | other => if other.isEmpty then return {} else failure

end EditBatch.Yaml

namespace EditBatch

open Yaml

namespace Settings

/-- Reads settings. -/
def ofYaml? (text : String) : Option Settings := do
  let contents ← readDocument text
  match contents.root with
  | none => return {}
  | some root => Decoder.decode? (readSettings contents.anchored) root

/-- The entry of a marker, which is null where there is none. -/
def markerEntry : Option String → List Char
  | none => writeWordEntry markerKey "null"
  | some text => writeTextEntry 0 markerKey text

/-- Settings as a text. -/
def toYaml (settings : Settings) : String :=
  String.ofList (markerEntry settings.cursorMarker
    ++ writeWordEntry backendKey settings.backend.name
    ++ writeWordEntry loggingKey (if settings.fileLogging then "true" else "false"))

end Settings

end EditBatch
