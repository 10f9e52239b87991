import EditBatch.Yaml.Scalars
set_option autoImplicit false

/-!
# Anchors, tags and directives

A node may be marked with an anchor, to which aliases refer, and with a tag. Tags are written
in full or with a handle; directives in front of a document say what handles stand for.

## Main definitions

* `EditBatch.Yaml.Properties` — the anchor and the tag of a node.
* `EditBatch.Yaml.readName`, `EditBatch.Yaml.readTag` — read an anchor or a tag.
* `EditBatch.Yaml.readDirectives` — reads the directives of a document.
-/

namespace EditBatch.Yaml

/-- The anchor and the tag that a node is marked with. -/
structure Properties where
  anchor : Option Nat := none
  tag : Option String := none
  deriving DecidableEq, Repr

/-- Whether a node is marked at all. -/
def Properties.isNone (properties : Properties) : Bool :=
  properties.anchor.isNone && properties.tag.isNone

/-- Joins marks of a node that stand apart. There may be only one of each kind. -/
def Properties.merge? (outer inner : Properties) : Option Properties :=
  if (outer.anchor.isSome && inner.anchor.isSome) || (outer.tag.isSome && inner.tag.isSome)
  then none
  else some ⟨outer.anchor <|> inner.anchor, outer.tag <|> inner.tag⟩

/-! ## Anchors and aliases -/

/-- Whether a name may end here. -/
def endsName : List Char → Bool
  | [] => true
  | c :: _ => isBlank c || isBreak c || "?:,]\x7d%@`".toList.contains c

/-- Reads the name of an anchor or an alias behind its mark. -/
def readName (state : State) : Option (String × State) :=
  let name := state.rest.takeWhile isNameChar
  let after := state.skipMany name.length
  if name.isEmpty || !endsName after.rest then none else some (String.ofList name, after)

/-- Gives an anchor a number: how many names there were before. A name that is used again keeps
the count as it is. -/
def State.addAnchor (state : State) (name : String) : Nat × State :=
  let number := state.names.length
  let others := state.names.filter fun entry => entry.1 != name
  (number, { state with names := (name, number) :: others })

/-- Keeps a node under its anchor. -/
def State.keep (state : State) (properties : Properties) (node : Node) : State :=
  match properties.anchor with
  | some number => { state with anchored := (number, node) :: state.anchored }
  | none => state

/-! ## Tags -/

/-- The characters of tags. Brackets and commas only belong to tags written in full. -/
def isTagChar (full : Bool) (c : Char) : Bool :=
  isNameChar c || ";/?:@&=+$.!~*'()%".toList.contains c || (full && ",[]".toList.contains c)

/-- The byte written by a percent sign and two hexadecimal digits. -/
def escapedByte? : List Char → Option Nat
  | '%' :: a :: b :: _ => do return (← digit? 16 a) * 16 + (← digit? 16 b)
  | _ => none

/-- The number of bytes of a character that starts with a given byte, and what the byte adds to
its number. -/
def leadingByte? (byte : Nat) : Option (Nat × Nat) :=
  if byte < 0x80 then some (1, byte)
  else if byte < 0xC0 then none
  else if byte < 0xE0 then some (2, byte % 0x20)
  else if byte < 0xF0 then some (3, byte % 0x10)
  else if byte < 0xF8 then some (4, byte % 0x08)
  else none

/-- The number of a character whose remaining bytes are escaped at the front of a text. -/
def continued? : Nat → Nat → List Char → Option Nat
  | 0, number, _ => some number
  | count + 1, number, text => do
    let byte ← escapedByte? text
    if byte / 0x40 = 2 then continued? count (number * 0x40 + byte % 0x40) (text.drop 3)
    else none

/-- Reads the characters of a tag. A percent sign starts the bytes of an escaped character. -/
def readTagChars (full : Bool) (fuel : Nat) (state : State) : Option (List Char × State) :=
  match fuel with
  | 0 => none
  | fuel + 1 =>
    match state.rest with
    | [] => some ([], state)
    | c :: _ =>
      if !isTagChar full c then some ([], state)
      else if c = '%' then do
        let (count, front) ← leadingByte? (← escapedByte? state.rest)
        let number ← continued? (count - 1) front (state.rest.drop 3)
        let (text, after) ← readTagChars full fuel (state.skipMany (3 * count))
        return (Char.ofNat number :: text, after)
      else do
        let (text, after) ← readTagChars full fuel state.skip
        return (c :: text, after)

/-- Reads the characters of a tag, of which there must be one if nothing stands in front. -/
def readTagText (full : Bool) (front : List Char) (state : State) :
    Option (List Char × State) := do
  let (text, after) ← readTagChars full (state.rest.length + 1) state
  if front.isEmpty && text.isEmpty then none else return (front ++ text, after)

/-- Reads the handle of a tag: an exclamation mark, perhaps a name and another one. -/
def readHandle (state : State) : List Char × State :=
  let name := state.rest.tail.takeWhile isNameChar
  let after := state.skipMany (name.length + 1)
  if after.rest.head? = some '!' then ('!' :: name ++ ['!'], after.skip)
  else ('!' :: name, after)

/-- The tag that a handle and a suffix write. -/
def expandTag? (context : Context) (handle suffix : List Char) : Option String :=
  (context.handles.lookup (String.ofList handle)).map (· ++ String.ofList suffix)

/-- Reads a tag written in full, behind its opening bracket. -/
def readFullTag (state : State) : Option (String × State) := do
  let (text, after) ← readTagText true [] state
  if after.rest.head? = some '>' then return (String.ofList text, after.skip) else none

/-- Reads a tag written with a handle. -/
def readShortTag (context : Context) (state : State) : Option (String × State) := do
  let (handle, after) := readHandle state
  if 1 < handle.length && handle.getLast? == some '!' then
    let (suffix, after) ← readTagText false [] after
    return (← expandTag? context handle suffix, after)
  else
    let (suffix, after) ← readTagText false handle after
    if suffix.tail.isEmpty then return ("!", after)
    else return (← expandTag? context ['!'] suffix.tail, after)

/-- Reads a tag. A gap has to follow it, or between brackets a comma. -/
def readTag (context : Context) (state : State) : Option (String × State) := do
  let (tag, after) ←
    match state.rest.tail.head? with
    | some '<' => readFullTag (state.skipMany 2)
    | _ => readShortTag context state
  if atGap after.rest || (context.flow && after.rest.head? == some ',') then return (tag, after)
  else none

/-! ## Properties -/

/-- Reads one anchor or tag, if one stands here and the node has none yet. -/
def readProperty (context : Context) (properties : Properties) (state : State) :
    Option (Option (Properties × State)) :=
  match state.rest.head? with
  | some '&' =>
    if properties.anchor.isSome then some none
    else do
      let (name, after) ← readName state.skip
      let (number, after) := after.addAnchor name
      return some ({ properties with anchor := some number }, after.withFresh false)
  | some '!' =>
    if properties.tag.isSome then some none
    else do
      let (tag, after) ← readTag context state
      return some ({ properties with tag := some tag }, after.withFresh false)
  | _ => some none

/-- Reads the anchor and the tag of a node, in either order. What stands between them and behind
them is passed by `pass`. -/
def readProperties (context : Context) (pass : State → State) (state : State) :
    Option (Properties × State) := do
  match ← readProperty context {} state with
  | none => return ({}, state)
  | some (properties, after) =>
    let after := pass after
    match ← readProperty context properties after with
    | none => return (properties, after)
    | some (properties, after) => return (properties, pass after)

/-! ## Directives -/

/-- The handles that every document has. -/
def standardHandles : List (String × String) := [("!", "!"), ("!!", "tag:yaml.org,2002:")]

/-- Passes the blanks of a line. -/
def skipBlanks (state : State) : State :=
  state.skipMany (state.rest.takeWhile isBlank).length

/-- Reads a number of up to nine digits. -/
def readVersionPart (state : State) : Option (Nat × State) :=
  let digits := state.rest.takeWhile Char.isDigit
  if digits.isEmpty || 9 < digits.length then none
  else some (digits.foldl (fun number c => number * 10 + (c.toNat - '0'.toNat)) 0,
    state.skipMany digits.length)

/-- Reads a version, which must be one of those that can be read. -/
def readVersion (state : State) : Option State := do
  let (major, after) ← readVersionPart (skipBlanks state)
  if after.rest.head? ≠ some '.' then none
  else
    let (minor, after) ← readVersionPart after.skip
    if major = 1 ∧ (minor = 1 ∨ minor = 2) then return after else none

/-- Reads a handle and what it stands for. -/
def readHandleMeaning (state : State) : Option ((String × String) × State) := do
  let state := skipBlanks state
  if state.rest.head? ≠ some '!' then none
  else
    let (handle, after) := readHandle state
    if 1 < handle.length && handle.getLast? != some '!' then none
    else if !(after.rest.head?.any isBlank) then none
    else
      let (meaning, after) ← readTagText true [] (skipBlanks after)
      if atGap after.rest then return ((String.ofList handle, String.ofList meaning), after)
      else none

/-- The directives of a document. -/
structure Directives where
  version : Bool := false
  handles : List (String × String) := []
  /-- Whether there is any directive. -/
  present : Bool := false
  deriving DecidableEq, Repr

/-- Reads one directive from its mark on. -/
def readDirective (directives : Directives) (state : State) : Option (Directives × State) := do
  let state := state.skip
  let name := state.rest.takeWhile isNameChar
  let after := state.skipMany name.length
  if !atGap after.rest then none
  else
    let (directives, after) ←
      if name = "YAML".toList then
        if directives.version then none
        else (readVersion after).map fun after => ({ directives with version := true }, after)
      else if name = "TAG".toList then
        (readHandleMeaning after).bind fun (entry, after) =>
          if (directives.handles.lookup entry.1).isSome then none
          else some ({ directives with handles := entry :: directives.handles }, after)
      else none
    let after ← skipMarkLine after
    return ({ directives with present := true }, after.withFresh false)

/-- Reads the directives in front of a document. -/
def readDirectives (directives : Directives) (fuel : Nat) (state : State) :
    Option (Directives × State) :=
  match fuel with
  | 0 => none
  | fuel + 1 => do
    let state := state.toToken false
    if state.atDirective then
      let (directives, after) ← readDirective directives state
      readDirectives directives fuel after
    else return (directives, state)

end EditBatch.Yaml
