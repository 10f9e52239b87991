import EditBatch.Path
import EditBatch.Settings
set_option autoImplicit false

/-!
# What a run does

## Main definitions

* `EditBatch.Options` — what a user asks for in one run.
* `EditBatch.Plan` — what a run does, settings taken into account.
* `EditBatch.Options.plan` — the plan for a run.
-/

namespace EditBatch

/-- What a user asks for in one run. -/
structure Options where
  /-- The document. -/
  file : Path
  script : Path
  /-- Whether only the place of the caret is asked for. -/
  preview : Bool := false
  /-- Whether the document is to be replaced. -/
  inPlace : Bool := false
  /-- The file to write to. -/
  output : Option Path := none
  marker : Option String := none
  backend : Option Backend := none
  /-- Whether the edits are to be listed. -/
  printEdits : Bool := false
  deriving DecidableEq, Repr

/-- Where the edited document goes. -/
inductive Target where
  /-- To the output, with a marker at the caret if there is one. -/
  | output (marker : Option String)
  | file (path : Path)
  /-- To where the document was. -/
  | inPlace
  deriving DecidableEq, Repr

/-- What a run does with the edits. -/
inductive Mode where
  /-- Tells where the caret would be. -/
  | preview
  /-- Applies them and writes the document. -/
  | apply (target : Target)
  deriving DecidableEq, Repr

/-- What a run does. -/
structure Plan where
  file : Path
  script : Path
  mode : Mode
  backend : Backend
  printEdits : Bool
  deriving DecidableEq, Repr

/-- Why there is no plan for some options. -/
inductive PlanError where
  /-- The document is to be written, though only the place of the caret is asked for. -/
  | previewWrites
  deriving DecidableEq, Repr

/-- The error in words. -/
def PlanError.message : PlanError → String
  | previewWrites => "--preview does not write the document"

namespace Options

/-- What a run does with the edits. A marker in the settings only counts for the output. -/
def mode (options : Options) (settings : Settings) : Except PlanError Mode :=
  if options.preview then
    if options.inPlace || options.output.isSome then .error .previewWrites else .ok .preview
  else if options.inPlace then .ok (.apply .inPlace)
  else match options.output with
    | some path => .ok (.apply (.file path))
    | none => .ok (.apply (.output (options.marker <|> settings.cursorMarker)))

/-- The plan for a run. Options go before settings. -/
def plan (options : Options) (settings : Settings) : Except PlanError Plan := do
  let mode ← options.mode settings
  return {
    file := options.file
    script := options.script
    mode := mode
    backend := options.backend.getD settings.backend
    printEdits := options.printEdits }

end Options

end EditBatch
