import EditBatch.Batch.Application
import EditBatch.CommandLine
import EditBatch.Document.FlatText
import EditBatch.Document.Rope
import EditBatch.Script.Load
import EditBatch.Settings.Storage
set_option autoImplicit false

/-!
# The program

A run reads a document and a script, makes a batch of the script, and either tells where the
caret would be or makes the edits and writes the document. Nothing is written before all edits
have been made.

## Main definitions

* `EditBatch.Failure` — why a run fails.
* `EditBatch.Plan.execute` — does what a plan says.
* `EditBatch.Program.run` — a whole run, from its arguments to its exit code.
-/

namespace EditBatch

/-- Why a run fails. -/
inductive Failure where
  | badPlan (cause : PlanError)
  | unreadable (path : Path) (cause : FileError)
  | badScript (path : Path) (cause : ScriptError)
  /-- An operation of the script is refused for the document. -/
  | notFitting (path : Path) (cause : Rejection)
  /-- An edit does not fit the document as it is by then. -/
  | notApplied (path : Path) (cause : EditError)
  /-- The marker does not fit the edited document. -/
  | notMarked (cause : EditError)
  | unwritable (path : Path) (cause : FileError)
  deriving DecidableEq, Repr

namespace Failure

/-- The failure in words, followed by its causes. -/
def chain : Failure → List String
  | badPlan cause => [cause.message]
  | unreadable path cause => [s!"Failed to read {path.text}", cause.message]
  | badScript path cause => s!"Failed to load edit script {path.text}" :: cause.chain
  | notFitting path cause =>
    s!"Edit script does not fit {path.text}" :: (ScriptError.rejected cause).chain
  | notApplied path cause => [s!"Failed to apply edits to {path.text}", cause.message]
  | notMarked cause => [cause.message]
  | unwritable path cause => [s!"Failed to write {path.text}", cause.message]

/-- The causes below a message. Several causes are numbered. -/
def causeLines : List String → List String
  | [] => []
  | [cause] => ["", "Caused by:", s!"    {cause}"]
  | causes => "" :: "Caused by:" ::
    causes.mapIdx fun index cause => s!"    {index}: {cause}"

/-- The failure as it is reported. -/
def render (failure : Failure) : String :=
  let lines := match failure.chain with
    | [] => []
    | message :: causes => s!"Error: {message}" :: causeLines causes
  String.join (lines.map (· ++ "\n"))

end Failure

/-! ## Executing a plan -/

namespace Plan

variable {m : Type → Type} [Monad m] [Host m] {D : Type} [Document D]

/-- What a preview tells. -/
def previewLine (caret : Option Offset) : String :=
  match caret with
  | some offset => s!"{offset.toNat}\n"
  | none => "unknown\n"

/-- Where the caret is in an edited document: its offset, and its line and column, both counted
from one. -/
def caretLine (document : D) (caret : Offset) : String :=
  let position := Document.offsetToPosition document caret.toNat
  s!"caret: {caret.toNat} ({position.line + 1}:{position.column + 1})\n"

/-- The document with a marker at the caret, if there is a marker and a caret. -/
def mark (document : D) (marker : Option String) (caret : Option Offset) : Except EditError D :=
  match marker, caret with
  | some text, some offset => Document.replace document offset.toNat 0 text
  | _, _ => .ok document

/-- Writes an edited document to where it goes. -/
def deliver (plan : Plan) (target : Target) (document : D) (caret : Option Offset) :
    ExceptT Failure m Unit := do
  match target with
  | .output marker =>
    let marked ← ExceptT.mk (pure ((mark document marker caret).mapError Failure.notMarked))
    ExceptT.lift (Host.print (Document.content marked))
  | .file path => Host.attempt (Host.writeText path (Document.content document)) (.unwritable path)
  | .inPlace =>
    Host.attempt (Host.writeText plan.file (Document.content document)) (.unwritable plan.file)

/-- Reads the document and the script of a plan, and makes a batch of the script. -/
def prepare (plan : Plan) (D : Type) [Document D] : ExceptT Failure m (D × Batch) := do
  let text ← Host.attempt (Host.readText plan.file) (.unreadable plan.file)
  let document : D := Document.ofText text
  let script ← (Script.load plan.script).adapt (.badScript plan.script)
  let batch ← ExceptT.mk (pure ((script.compile document).mapError (.notFitting plan.file)))
  return (document, batch)

/-- Does what a plan says, with documents of a given kind. -/
def executeWith (plan : Plan) (D : Type) [Document D] : ExceptT Failure m Unit := do
  let (document, batch) ← plan.prepare D
  if plan.printEdits then ExceptT.lift (Host.report (batch.render ++ "\n"))
  match plan.mode with
  | .preview => ExceptT.lift (Host.print (previewLine batch.preview))
  | .apply target =>
    let (edited, outcome) := batch.apply document
    let caret ← ExceptT.mk (pure (outcome.mapError (.notApplied plan.file)))
    if let some offset := caret then ExceptT.lift (Host.report (caretLine edited offset))
    plan.deliver target edited caret

/-- Does what a plan says. -/
def execute (plan : Plan) : ExceptT Failure m Unit :=
  match plan.backend with
  | .rope => plan.executeWith Rope
  | .flat => plan.executeWith FlatText

end Plan

/-! ## A whole run -/

namespace Program

variable {m : Type → Type} [Monad m] [Host m]

/-- The name and the version of the program. -/
def versionLine : String := "docedit 0.1.0\n"

/-- What the program is for and what it takes. -/
def helpLines : List String :=
  ["Apply a batch of document edits in one pass",
    "",
    "Usage: docedit [OPTIONS] --script <SCRIPT> <FILE>",
    "",
    "Arguments:",
    "  <FILE>  Document the script's offsets refer to",
    "",
    "Options:",
    "  -s, --script <SCRIPT>    Edit script (YAML, or JSON with a .json extension)",
    "  -p, --preview            Only report where the caret would land",
    "  -i, --in-place           Write the edited document back to FILE",
    "  -o, --output <PATH>      Write the edited document to this path instead of stdout",
    "      --marker <TEXT>      Insert this marker at the resulting caret (stdout only)",
    "      --backend <BACKEND>  Document backend (overrides config) [rope or string]",
    "      --print-edits        Print the compiled edit batch to stderr",
    "  -h, --help               Print help",
    "  -V, --version            Print version"]

/-- Why the arguments are refused, in words. -/
def refusalMessage : CommandLine.Refusal → String
  | .unknownArgument => "error: unexpected argument found\n"
  | .missingArgument => "error: the document or the script is missing\n"
  | .invalidValue => "error: a value is missing or invalid\n"
  | .conflict => "error: an argument cannot be used with another one\n"
  | .tooManyValues => "error: unexpected value for an option\n"
  | .help => String.join (helpLines.map (· ++ "\n"))
  | .version => versionLine

/-- Answers arguments that are no options to run with. Help and the version are no errors. -/
def refuse (refusal : CommandLine.Refusal) : m UInt8 := do
  match refusal with
  | .help | .version =>
    Host.print (refusalMessage refusal)
    return 0
  | _ =>
    Host.report (refusalMessage refusal)
    return 2

/-- Makes the directory for logs, if logs are to be kept. If this fails the run goes on. -/
def prepareLogs (settings : Settings) : m Unit := do
  if settings.fileLogging then
    if let some path := (← Host.environment).logsDirectory? then
      if let .error cause ← Host.makeDirectories path then
        Host.report ("Warning: Could not initialize file logging: "
          ++ s!"Failed to create directory {path.text}: {cause.message}\n")

/-- Does what options and settings ask for. -/
def runOptions (options : Options) (settings : Settings) : ExceptT Failure m Unit := do
  let plan ← ExceptT.mk (pure ((options.plan settings).mapError Failure.badPlan))
  plan.execute

/-- A run with given arguments, the name of the program left out. Gives the exit code. -/
def run (arguments : List String) : m UInt8 := do
  match Options.ofArguments arguments with
  | .error refusal => refuse refusal
  | .ok options =>
    let settings ← Settings.load
    prepareLogs settings
    match ← (runOptions options settings).run with
    | .ok () => return 0
    | .error failure =>
      Host.report failure.render
      return 1

end Program

end EditBatch
