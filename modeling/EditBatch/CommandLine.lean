import EditBatch.Options
set_option autoImplicit false

/-!
# The command line

Options have long names behind two dashes, and some have a letter behind one dash, where several
letters may stand together. A value stands behind an equals sign, right behind its letter, or is
the next argument. Two dashes alone end the options.

## Main definitions

* `EditBatch.CommandLine.Refusal` — why there are no options to run with.
* `EditBatch.CommandLine.Reading` — the arguments read so far.
* `EditBatch.Options.ofArguments` — the options that arguments write.

## Design

The value of an option is judged when the next option, the document or the end of the arguments
shows that it is complete. So of two mistakes the one that shows first is reported: an unknown
name before the missing value in front of it, a missing value before the option behind it.
-/

namespace EditBatch.CommandLine

/-- Why there are no options to run with. -/
inductive Refusal where
  | unknownArgument
  /-- The document or the script is missing. -/
  | missingArgument
  /-- A value is missing or not allowed. -/
  | invalidValue
  /-- Something stands twice, or two options exclude each other. -/
  | conflict
  /-- There is a value where none belongs. -/
  | tooManyValues
  /-- Help is asked for instead. -/
  | help
  /-- The version is asked for instead. -/
  | version
  deriving DecidableEq, Repr

/-- Options without a value. -/
inductive Flag where
  | preview | inPlace | printEdits | help | version
  deriving DecidableEq, Repr

/-- What a value can be given for. -/
inductive Slot where
  /-- The document, which needs no name in front. -/
  | file
  | script | output | marker | backend
  deriving DecidableEq, Repr

/-- What the name of an option stands for. -/
inductive Switch where
  | flag (flag : Flag)
  | slot (slot : Slot)
  deriving DecidableEq, Repr

/-- The long names of options. -/
def longNames : List (String × Switch) :=
  [("script", .slot .script), ("preview", .flag .preview), ("in-place", .flag .inPlace),
    ("output", .slot .output), ("marker", .slot .marker), ("backend", .slot .backend),
    ("print-edits", .flag .printEdits), ("help", .flag .help), ("version", .flag .version)]

/-- The letters of options. -/
def letters : List (Char × Switch) :=
  [('s', .slot .script), ('p', .flag .preview), ('i', .flag .inPlace), ('o', .slot .output),
    ('h', .flag .help), ('V', .flag .version)]

/-- The arguments read so far. -/
structure Reading where
  /-- The flags given. -/
  flags : List Flag := []
  /-- The values given and judged. -/
  values : List (Slot × String) := []
  /-- What is waiting to be judged, with its value if that has been read. -/
  pending : Option (Slot × Option String) := none
  /-- Whether the options have been ended. -/
  ended : Bool := false
  deriving DecidableEq, Repr

/-- Whether a value is allowed. Paths have to name something. -/
def isAllowed (slot : Slot) (value : String) : Bool :=
  match slot with
  | .file | .script | .output => !value.isEmpty
  | .marker => true
  | .backend => (Backend.ofName? value).isSome

namespace Reading

/-- The reading with a value, which must be the first one for its slot. -/
def give (reading : Reading) (slot : Slot) (value : String) : Except Refusal Reading :=
  if (reading.values.lookup slot).isSome then .error .conflict
  else if isAllowed slot value then
    .ok { reading with values := reading.values ++ [(slot, value)] }
  else .error .invalidValue

/-- Judges what is waiting. -/
def settle (reading : Reading) : Except Refusal Reading :=
  match reading.pending with
  | none => .ok reading
  | some (_, none) => .error .invalidValue
  | some (slot, some value) => ({ reading with pending := none }).give slot value

/-- Reads a flag. Help and the version are shown right away. -/
def takeFlag (reading : Reading) (flag : Flag) : Except Refusal Reading := do
  let reading ← reading.settle
  if reading.flags.contains flag then throw .conflict
  else match flag with
    | .help => throw .help
    | .version => throw .version
    | flag => return { reading with flags := flag :: reading.flags }

/-- Reads an option that takes a value, which may stand right behind it. -/
def takeSlot (reading : Reading) (slot : Slot) (attached : Option String) :
    Except Refusal Reading := do
  let reading ← reading.settle
  match attached with
  | some value => reading.give slot value
  | none => return { reading with pending := some (slot, none) }

/-- Reads an option by its long name, without the dashes. -/
def takeLong (reading : Reading) (text : List Char) : Except Refusal Reading :=
  let name := text.takeWhile (· ≠ '=')
  let attached := match text.dropWhile (· ≠ '=') with
    | [] => none
    | _ :: value => some (String.ofList value)
  match longNames.lookup (String.ofList name) with
  | none => .error .unknownArgument
  | some (.flag flag) => if attached.isSome then .error .tooManyValues else reading.takeFlag flag
  | some (.slot slot) => reading.takeSlot slot attached

/-- The value behind the letter of an option. An equals sign in front does not belong to it. -/
def valueBehind : List Char → Option String
  | [] => none
  | '=' :: value => some (String.ofList value)
  | value => some (String.ofList value)

/-- Reads options by their letters. -/
def takeLetters (reading : Reading) : List Char → Except Refusal Reading
  | [] => .ok reading
  | c :: rest =>
    match letters.lookup c with
    | none => .error .unknownArgument
    | some (.flag flag) => do takeLetters (← reading.takeFlag flag) rest
    | some (.slot slot) => reading.takeSlot slot (valueBehind rest)

/-- Whether a value is still missing. -/
def wantsValue (reading : Reading) : Bool :=
  match reading.pending with
  | some (_, none) => true
  | _ => false

/-- Whether the document has been named. -/
def hasFile (reading : Reading) : Bool :=
  (reading.values.lookup .file).isSome || reading.pending.any fun entry => entry.1 == .file

/-- Reads an argument that is no option: the document, of which there is one. -/
def takeFile (reading : Reading) (value : String) : Except Refusal Reading := do
  if reading.hasFile then throw .unknownArgument
  else return { ← reading.settle with pending := some (.file, some value) }

/-- Reads the value that is still missing. -/
def takeValue (reading : Reading) (value : String) : Reading :=
  { reading with pending := reading.pending.map fun entry => (entry.1, some value) }

/-- Reads an argument. A single dash is no option. -/
def take (reading : Reading) (argument : String) : Except Refusal Reading :=
  if reading.ended then reading.takeFile argument
  else match argument.toList with
    | ['-', '-'] => .ok { reading with ended := true }
    | '-' :: '-' :: text => reading.takeLong text
    | '-' :: c :: rest => reading.takeLetters (c :: rest)
    | _ =>
      if reading.wantsValue then .ok (reading.takeValue argument) else reading.takeFile argument

/-- The options read. -/
def finish (reading : Reading) : Except Refusal Options := do
  let reading ← reading.settle
  let given (flag : Flag) := reading.flags.contains flag
  let value (slot : Slot) := reading.values.lookup slot
  if given .inPlace && (value .output).isSome then throw .conflict
  else match value .file, value .script with
    | some file, some script =>
      return {
        file := ⟨file⟩
        script := ⟨script⟩
        preview := given .preview
        inPlace := given .inPlace
        output := (value .output).map Path.mk
        marker := value .marker
        backend := (value .backend).bind Backend.ofName?
        printEdits := given .printEdits }
    | _, _ => throw .missingArgument

end Reading

end EditBatch.CommandLine

namespace EditBatch

open CommandLine

/-- The options that arguments write, the name of the program left out. -/
def Options.ofArguments (arguments : List String) : Except Refusal Options := do
  (← arguments.foldlM Reading.take {}).finish

end EditBatch
