import EditBatch.Batch
set_option autoImplicit false

/-!
# Edit scripts

A script is the written form of a batch: a list of operations, some of which name lines instead
of ranges. Compiling a script against a snapshot of its document records every operation.

## Main definitions

* `EditBatch.Op` — one operation.
* `EditBatch.Op.Kind`, `EditBatch.Op.Field` — what operations and their arguments are called, and
  the order in which the arguments are written.
* `EditBatch.Script` — operations in order.
* `EditBatch.Script.compile` — the batch of a script, or the first operation refused.

## Main results

* `EditBatch.Op.Kind.tag_eq_name` — operations are called the same in scripts and in rejections.

## Implementation notes

Rejections take the names of operations from a table of their own (`Kind.name`), while scripts make
them from the titles (`Kind.tag`). Nothing but `Kind.tag_eq_name` keeps the two together.
-/

namespace EditBatch

/-- One operation of a script, in offsets and lines of the unchanged document. -/
inductive Op where
  | insert (offset : Offset) (text : String)
  | delete (start stop : Offset)
  | deleteText (offset : Offset) (text : String)
  | replace (start stop : Offset) (text : String)
  | moveCaret (offset : Offset)
  | deleteLine (line : UInt64)
  | deleteLineAt (offset : Offset)
  deriving DecidableEq, Repr

namespace Op

/-- What an operation does. -/
inductive Kind where
  | insert | delete | deleteText | replace | moveCaret | deleteLine | deleteLineAt
  deriving DecidableEq, Repr

/-- What an argument of an operation says. -/
inductive Field where
  | offset | start | stop | line | text
  deriving DecidableEq, Repr

/-- The value of an argument. -/
inductive Argument where
  | number (value : UInt64)
  | text (value : String)
  deriving DecidableEq, Repr

/-- The name of a kind of operation in rejections. -/
def Kind.name : Kind → String
  | insert => "insert"
  | delete => "delete"
  | deleteText => "delete_text"
  | replace => "replace"
  | moveCaret => "move_cursor_to"
  | deleteLine => "delete_line_backward"
  | deleteLineAt => "delete_line_backward_at_offset"

/-- The title of a kind of operation, in which every word starts with a capital. -/
def Kind.title : Kind → String
  | insert => "Insert"
  | delete => "Delete"
  | deleteText => "DeleteText"
  | replace => "Replace"
  | moveCaret => "MoveCursorTo"
  | deleteLine => "DeleteLineBackward"
  | deleteLineAt => "DeleteLineBackwardAtOffset"

/-- A letter of a title that is not its first one, in lower case. A capital starts a word and is
kept apart from the word in front by an underscore. -/
def snakeLetter (c : Char) : List Char := if c.isUpper then ['_', c.toLower] else [c]

/-- A title in lower case, with underscores between the words. -/
def snakeCase (title : String) : String :=
  match title.toList with
  | [] => ""
  | first :: rest => String.ofList (first.toLower :: rest.flatMap snakeLetter)

/-- The name of a kind of operation in scripts, which is made from its title. -/
def Kind.tag (kind : Kind) : String := snakeCase kind.title

/-- **Operations are called the same in scripts and in rejections.** -/
theorem Kind.tag_eq_name (kind : Kind) : kind.tag = kind.name := by
  cases kind <;> decide

/-- All kinds of operations, in the order in which they are listed to the user. -/
def Kind.all : List Kind :=
  [insert, delete, deleteText, replace, moveCaret, deleteLine, deleteLineAt]

/-- The kind of operation that has a given name in scripts. -/
def Kind.ofTag? (tag : String) : Option Kind := Kind.all.find? fun kind => kind.tag == tag

/-- The arguments that a kind of operation takes, in the order in which they are written. -/
def Kind.fields : Kind → List Field
  | insert => [.offset, .text]
  | delete => [.start, .stop]
  | deleteText => [.offset, .text]
  | replace => [.start, .stop, .text]
  | moveCaret => [.offset]
  | deleteLine => [.line]
  | deleteLineAt => [.offset]

/-- The name of an argument in scripts. -/
def Field.name : Field → String
  | offset => "offset"
  | start => "start"
  | stop => "end"
  | line => "line"
  | text => "text"

/-- The kind of an operation. -/
def kind : Op → Kind
  | insert .. => .insert
  | delete .. => .delete
  | deleteText .. => .deleteText
  | replace .. => .replace
  | moveCaret .. => .moveCaret
  | deleteLine .. => .deleteLine
  | deleteLineAt .. => .deleteLineAt

/-- The arguments of an operation with their names, in the order in which they are written. -/
def arguments : Op → List (Field × Argument)
  | insert offset text => [(.offset, .number offset), (.text, .text text)]
  | delete start stop => [(.start, .number start), (.stop, .number stop)]
  | deleteText offset text => [(.offset, .number offset), (.text, .text text)]
  | replace start stop text => [(.start, .number start), (.stop, .number stop), (.text, .text text)]
  | moveCaret offset => [(.offset, .number offset)]
  | deleteLine line => [(.line, .number line)]
  | deleteLineAt offset => [(.offset, .number offset)]

/-- Every operation has the arguments of its kind. -/
theorem map_fst_arguments (op : Op) : op.arguments.map Prod.fst = op.kind.fields := by
  cases op <;> rfl

/-- A kind is found under its name in scripts. -/
theorem Kind.ofTag?_tag (kind : Kind) : Kind.ofTag? kind.tag = some kind := by
  cases kind <;> decide

/-- Records an operation. Lines are looked up in the snapshot. -/
def record {D : Type} [Document D] (snapshot : D) : Op → Recording Unit
  | insert offset text => .insert offset text
  | delete start stop => .delete start stop
  | deleteText offset text => .deleteText offset text
  | replace start stop text => .replace start stop text
  | moveCaret offset => .moveCaret offset
  | deleteLine line => .deleteLine snapshot line.toNat
  | deleteLineAt offset => .deleteLineAt snapshot offset.toNat

end Op

/-- Operations in the order in which they apply. -/
structure Script where
  ops : List Op := []
  deriving DecidableEq, Repr

/-- The refusal of an operation: its place in the script, what it is, and the cause. -/
structure Rejection where
  index : Nat
  kind : Op.Kind
  cause : EditError
  deriving DecidableEq, Repr

/-- The refusal in words. -/
def Rejection.message (rejection : Rejection) : String :=
  s!"edit #{rejection.index} ({rejection.kind.name}) rejected: {rejection.cause.message}"

namespace Script

variable {D : Type} [Document D]

/-- Records operations, the first of which has a given index, up to the first one refused. -/
def recordAll (snapshot : D) (index : Nat) (batch : Batch) : List Op → Except Rejection Batch
  | [] => .ok batch
  | op :: rest =>
    match (op.record snapshot).run.run batch with
    | (.ok (), batch) => recordAll snapshot (index + 1) batch rest
    | (.error cause, _) => .error ⟨index, op.kind, cause⟩

/-- The batch of a script, for the document of which `snapshot` is a copy. -/
def compile (script : Script) (snapshot : D) : Except Rejection Batch :=
  recordAll snapshot 0 {} script.ops

end Script

end EditBatch
