import EditBatch.Yaml.Properties
set_option autoImplicit false

/-!
# Reading documents

A document is read by descent into its nodes. Between brackets only marks count. In blocks the
column of a character decides which node it belongs to: what stands further right than the
block around it starts a node of that block, what stands in its column is the next key or item,
and what stands further left ends it.

## Main definitions

* `EditBatch.Yaml.readInline`, `EditBatch.Yaml.readFlowNode` — nodes on a line and between
  brackets.
* `EditBatch.Yaml.readBlockNode` — nodes of a block.
* `EditBatch.Yaml.readDocument` — the one document of a text.

## Design

A key has to stand in front of its colon on one line, and not more than 1024 characters away.
Whether something is a key is found out by reading it: `readKey` reads a node that a colon
follows, and gives nothing for any other.
-/

namespace EditBatch.Yaml

/-- The most characters that a key may take. -/
def keyLimit : Nat := 1024

/-- Whether what starts at one state and ends at another can be a key. -/
def isKeyRange (start stop : State) : Bool :=
  start.line == stop.line && stop.index ≤ start.index + keyLimit

/-- Goes on to the next mark between brackets, where no document may start or end. -/
def toFlowToken (state : State) : Option State :=
  let state := state.toToken true
  if state.atMarker || state.atDirective then none else some state

/-- Whether one of some marks comes next. -/
def atAny (marks : String) (state : State) : Bool := state.rest.head?.any marks.toList.contains

/-- Whether a node can start with the next character, its marks left out. -/
def atInline (context : Context) (state : State) : Bool :=
  atAny "*\"'[\x7b" state || startsPlain context.flow state.rest

/-- The node that stands where nothing is written, kept under its anchor. -/
def finishEmpty (properties : Properties) (state : State) : Node × State :=
  let node := Node.empty properties.tag
  (node, state.keep properties node)

/-- A scalar kept under its anchor. A lone exclamation mark as its tag says nothing. -/
def finishScalar (properties : Properties) (style : Style) (text : List Char) (state : State) :
    Node × State :=
  let tag := if properties.tag = some "!" then none else properties.tag
  let node := Node.scalar tag style (String.ofList text)
  (node, state.keep properties node)

/-- A collection kept under its anchor. -/
def finish (properties : Properties) (node : Node) (state : State) : Node × State :=
  (node, state.keep properties node)

/-- The node that an alias refers to. -/
def readAlias (state : State) : Option (Node × State) := do
  let (name, after) ← readName state.skip
  return (.reference (← after.names.lookup name), after.withFresh false)

/-! ## Nodes on a line and between brackets -/

mutual

/-- Reads a node that is no block, its marks given. -/
def readInline (fuel : Nat) (context : Context) (properties : Properties) (state : State) :
    Option (Node × State) :=
  match fuel with
  | 0 => none
  | fuel + 1 =>
    match state.rest.head? with
    | some '*' => if properties.isNone then readAlias state else none
    | some '"' => do
      let (text, after) ← readDouble state
      return finishScalar properties .doubleQuoted text after
    | some '\'' => do
      let (text, after) ← readSingle state
      return finishScalar properties .singleQuoted text after
    | some '[' => do
      let (items, after) ← readFlowItems fuel context.inFlow true (state.skip.withFresh true)
      return finish properties (.sequence properties.tag items) (after.withFresh false)
    | some '\x7b' => do
      let (entries, after) ←
        readFlowEntries fuel context.inFlow true (state.skip.withFresh true)
      return finish properties (.mapping properties.tag entries) (after.withFresh false)
    | _ =>
      if startsPlain context.flow state.rest then do
        let (text, after) ← readPlain context state
        return finishScalar properties .plain text after
      else none

/-- Reads a node between brackets, with its marks. -/
def readFlowNode (fuel : Nat) (context : Context) (state : State) : Option (Node × State) :=
  match fuel with
  | 0 => none
  | fuel + 1 => do
    let (properties, after) ← readProperties context (State.toToken true) state
    if after.atMarker || after.atDirective then none
    else if atInline context after then readInline fuel context properties after
    else if properties.isNone then none
    else return finishEmpty properties after

/-- Reads the value behind a key between brackets, or none if there is no colon or nothing
behind it. -/
def readFlowValue (fuel : Nat) (context : Context) (state : State) : Option (Node × State) :=
  match fuel with
  | 0 => none
  | fuel + 1 => do
    let state ← toFlowToken state
    if atAny ":" state then
      let state ← toFlowToken (state.skip.withFresh false)
      if atAny ",]\x7d" state then return (.empty none, state)
      else readFlowNode fuel context state
    else return (.empty none, state)

/-- Reads the items of a sequence between brackets, up to its end. An item may be a pair of a
key and a value. -/
def readFlowItems (fuel : Nat) (context : Context) (first : Bool) (state : State) :
    Option (List Node × State) :=
  match fuel with
  | 0 => none
  | fuel + 1 => do
    let state ← toFlowToken state
    if atAny "]" state then return ([], state.skip)
    else if !first && !atAny "," state then none
    else
      let state ← if first then some state else toFlowToken (state.skip.withFresh true)
      if atAny "]" state then return ([], state.skip)
      else
        let (item, after) ← readFlowItem fuel context state
        let (items, after) ← readFlowItems fuel context false after
        return (item :: items, after)

/-- Reads an item of a sequence between brackets. A question mark in front of a pair without a
key takes the mark behind it along. -/
def readFlowItem (fuel : Nat) (context : Context) (state : State) : Option (Node × State) :=
  match fuel with
  | 0 => none
  | fuel + 1 => do
    if atAny "?" state then
      let state ← toFlowToken (state.skip.withFresh false)
      let (key, after) ←
        if atAny ":," state then some (Node.empty none, state.skip)
        else readFlowNode fuel context state
      let (value, after) ← readFlowValue fuel context after
      return (.mapping none [(key, value)], after)
    else
      let (node, after) ← readFlowNode fuel context state
      let after ← toFlowToken after
      if atAny ":" after then
        if isKeyRange state after then
          let (value, after) ← readFlowValue fuel context after
          return (.mapping none [(node, value)], after)
        else none
      else return (node, after)

/-- Reads the entries of a mapping between brackets, up to its end. -/
def readFlowEntries (fuel : Nat) (context : Context) (first : Bool) (state : State) :
    Option (List (Node × Node) × State) :=
  match fuel with
  | 0 => none
  | fuel + 1 => do
    let state ← toFlowToken state
    if atAny "\x7d" state then return ([], state.skip)
    else if !first && !atAny "," state then none
    else
      let state ← if first then some state else toFlowToken (state.skip.withFresh true)
      if atAny "\x7d" state then return ([], state.skip)
      else
        let (key, value, after) ← readFlowEntry fuel context state
        let (entries, after) ← readFlowEntries fuel context false after
        return ((key, value) :: entries, after)

/-- Reads an entry of a mapping between brackets. -/
def readFlowEntry (fuel : Nat) (context : Context) (state : State) :
    Option (Node × Node × State) :=
  match fuel with
  | 0 => none
  | fuel + 1 => do
    if atAny "?" state then
      let state ← toFlowToken (state.skip.withFresh false)
      let (key, after) ←
        if atAny ":,\x7d" state then some (Node.empty none, state)
        else readFlowNode fuel context state
      let (value, after) ← readFlowValue fuel context after
      return (key, value, after)
    else
      let (key, after) ← readFlowNode fuel context state
      let colon ← toFlowToken after
      if atAny ":" colon && !isKeyRange state colon then none
      else
        let (value, after) ← readFlowValue fuel context colon
        return (key, value, after)

end

/-! ## Blocks -/

/-- Reads a key of a block and passes on to its colon. -/
def readKey (fuel : Nat) (context : Context) (state : State) : Option (Node × State) := do
  let (properties, after) ← readProperties context skipBlanks state
  let (key, after) ←
    if after.atMark ':' && !properties.isNone then some (finishEmpty properties after)
    else readInline fuel context properties after
  let colon := after.toToken false
  if colon.atMark ':' && isKeyRange state colon then return (key, colon) else none

mutual

/-- Reads a node of a block that starts in the column `context.indent`, its marks given. Where
none starts, the node is empty. Items in that very column are only its own if `dashes` says
so. -/
def readBlockNode (fuel : Nat) (context : Context) (dashes : Bool) (properties : Properties)
    (state : State) : Option (Node × State) :=
  match fuel with
  | 0 => none
  | fuel + 1 => do
    let column : Int := state.column
    if state.atEnd || column < context.indent then return finishEmpty properties state
    else if state.atDirective then none
    else if atAny "|>" state then
      let (text, after) ← readBlock context (atAny ">" state) state
      return finishScalar properties (if atAny ">" state then .folded else .literal) text after
    else if state.atMark '-' then
      if !state.fresh then none
      else if column = context.indent then
        if dashes then
          let (items, after) ← readItems fuel context true state
          return finish properties (.sequence properties.tag items) after
        else return finishEmpty properties state
      else
        let (items, after) ← readItems fuel (context.inBlock state.column) false state
        return finish properties (.sequence properties.tag items) after
    else if column = context.indent then return finishEmpty properties state
    else if state.atMark '?' then
      if state.fresh then readMapping fuel context properties state else none
    else if state.fresh && (readKey fuel context state).isSome then
      readMapping fuel context properties state
    else readLine fuel context dashes properties state

/-- Reads a mapping of a block, its marks given. -/
def readMapping (fuel : Nat) (context : Context) (properties : Properties) (state : State) :
    Option (Node × State) :=
  match fuel with
  | 0 => none
  | fuel + 1 => do
    let (entries, after) ← readBlockEntries fuel (context.inBlock state.column) state
    return finish properties (.mapping properties.tag entries) after

/-- Reads a node that is neither a key nor an item, some of its marks given. Behind its other
marks it may go on with the next line. -/
def readLine (fuel : Nat) (context : Context) (dashes : Bool) (outer : Properties)
    (state : State) : Option (Node × State) :=
  match fuel with
  | 0 => none
  | fuel + 1 => do
    let (inner, after) ← readProperties context skipBlanks state
    let properties ← outer.merge? inner
    if inner.isNone then readInline fuel context properties after
    else if after.rest.isEmpty || after.rest.head?.any (fun c => isBreak c || c == '#') then
      readBlockNode fuel context dashes properties (after.toToken false)
    else if atAny "|>" after then
      readBlockNode fuel context dashes properties after
    else readInline fuel context properties after

/-- Reads the items of a sequence whose first dash comes next. A sequence in the column of the
mapping around it ends where anything but a dash stands in that column. -/
def readItems (fuel : Nat) (context : Context) (shared : Bool) (state : State) :
    Option (List Node × State) :=
  match fuel with
  | 0 => none
  | fuel + 1 => do
    let start := (state.skip.withFresh true).toToken false
    let (item, after) ← readBlockNode fuel context false {} start
    let next := after.toToken false
    if !next.atEnd && (next.column : Int) = context.indent && next.atMark '-' then
      if next.fresh then
        let (items, after) ← readItems fuel context shared next
        return (item :: items, after)
      else none
    else if shared || next.atEnd || (next.column : Int) < context.indent then
      return ([item], next)
    else none

/-- Reads the entries of a mapping whose first key comes next. -/
def readBlockEntries (fuel : Nat) (context : Context) (state : State) :
    Option (List (Node × Node) × State) :=
  match fuel with
  | 0 => none
  | fuel + 1 => do
    let (key, value, after) ←
      if state.atMark '?' then readComplexEntry fuel context state
      else readEntry fuel context state
    let next := after.toToken false
    if next.atEnd || (next.column : Int) < context.indent then
      return ([(key, value)], next)
    else if (next.column : Int) = context.indent && next.fresh && !next.atDirective then
      let (entries, after) ← readBlockEntries fuel context next
      return ((key, value) :: entries, after)
    else none

/-- Reads an entry that starts with its key. -/
def readEntry (fuel : Nat) (context : Context) (state : State) : Option (Node × Node × State) :=
  match fuel with
  | 0 => none
  | fuel + 1 => do
    let (key, colon) ← readKey fuel context state
    let start := (colon.skip.withFresh false).toToken false
    let (value, after) ← readBlockNode fuel context true {} start
    return (key, value, after)

/-- Reads an entry that starts with a question mark. Its key may be any node, and its colon
stands in the column of the mapping. -/
def readComplexEntry (fuel : Nat) (context : Context) (state : State) :
    Option (Node × Node × State) :=
  match fuel with
  | 0 => none
  | fuel + 1 => do
    let start := (state.skip.withFresh true).toToken false
    let (key, after) ← readBlockNode fuel context true {} start
    let next := after.toToken false
    if !next.atEnd && (next.column : Int) = context.indent && next.fresh && next.atMark ':' then
      let start := (next.skip.withFresh true).toToken false
      let (value, after) ← readBlockNode fuel context true {} start
      return (key, value, after)
    else return (key, .empty none, next)

end

/-! ## Documents -/

/-- What a text consists of. -/
structure Contents where
  /-- The node of its document, if there is one. -/
  root : Option Node
  /-- The anchored nodes, the last one first. -/
  anchored : List (Nat × Node)
  deriving Repr

/-- Whether a character may stand in a text. -/
def isAllowed (c : Char) : Bool :=
  c == '\t' || c == '\n' || c == '\r' || (' ' ≤ c && c ≤ '~') || c == '\u0085'
    || ('\u00a0' ≤ c && c ≤ '\uffff' && c ≠ '\ufffe' && c ≠ '\uffff') || '\uffff' < c

/-- The state at the start of a text. A mark of byte order is passed, but takes a column. -/
def State.ofText (text : List Char) : State :=
  match text with
  | '\ufeff' :: rest => { rest := rest, column := 1, index := 1 }
  | text => { rest := text }

/-- Whether nothing follows a document but the marks of its end. -/
def endsText (fuel : Nat) (state : State) : Bool :=
  match fuel with
  | 0 => false
  | fuel + 1 =>
    let state := state.toToken false
    if state.rest.isEmpty then true
    else if state.column == 0 && State.atTriple '.' state.rest then
      endsText fuel ((state.skipMany 3).withFresh false)
    else false

/-- Enough fuel to read any part of a text. -/
def fuelFor (text : List Char) : Nat := 8 * text.length + 16

/-- Reads a text that holds one document, or none. -/
def readDocument (text : String) : Option Contents := do
  let chars := text.toList
  if !chars.all isAllowed then none
  else
    let fuel := fuelFor chars
    let (directives, state) ← readDirectives {} fuel (State.ofText chars)
    let context : Context :=
      { indent := -1, flow := false, handles := directives.handles ++ standardHandles }
    if state.rest.isEmpty then
      if directives.present then none else return ⟨none, []⟩
    else
      let (root, after) ←
        if state.column == 0 && State.atTriple '-' state.rest then
          readBlockNode fuel context false {}
            (((state.skipMany 3).withFresh false).toToken false)
        else if directives.present || state.atMarker then none
        else readBlockNode fuel context false {} state
      if endsText fuel after then return ⟨some root, after.anchored⟩ else none

end EditBatch.Yaml
