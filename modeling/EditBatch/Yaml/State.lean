import EditBatch.Yaml.Node
set_option autoImplicit false

/-!
# Going through a YAML text

A state says how far a text has been read: what is left, on which line and in which column it
starts, and whether a key or an item may start there. It also keeps the anchors met so far.

## Main definitions

* `EditBatch.Yaml.State` — how far a text has been read.
* `EditBatch.Yaml.State.toToken` — goes on to the next character that means something.
* `EditBatch.Yaml.Context` — where the node to be read stands.
-/

namespace EditBatch.Yaml

/-- The characters that end a line. -/
def isBreak (c : Char) : Bool :=
  c == '\r' || c == '\n' || c == '\u0085' || c == '\u2028' || c == '\u2029'

/-- Spaces and tabs. -/
def isBlank (c : Char) : Bool := c == ' ' || c == '\t'

/-- Whether nothing but a blank, a break or the end comes next. -/
def atGap : List Char → Bool
  | [] => true
  | c :: _ => isBlank c || isBreak c

/-- The characters of names. -/
def isNameChar (c : Char) : Bool := c.isAlphanum || c == '-' || c == '_'

/-- What the break at the front of a text reads as. Separators of lines and paragraphs stand
for themselves, all other breaks for a line feed. -/
def breakText : List Char → List Char
  | c :: _ => if c == '\u2028' || c == '\u2029' then [c] else ['\n']
  | [] => []

/-- How far a text has been read. -/
structure State where
  /-- What is left of the text. -/
  rest : List Char
  line : Nat := 0
  column : Nat := 0
  /-- The number of characters read. -/
  index : Nat := 0
  /-- Whether a key or an item of a block may start here. -/
  fresh : Bool := true
  /-- The names of the anchors, with their numbers. -/
  names : List (String × Nat) := []
  /-- The nodes that are anchored, the last one first. -/
  anchored : List (Nat × Node) := []
  deriving Repr

namespace State

/-- Passes a character that is no break. -/
def skip (state : State) : State :=
  { state with
    rest := state.rest.tail, column := state.column + 1, index := state.index + 1 }

/-- Passes several characters that are no breaks. -/
def skipMany (state : State) (count : Nat) : State :=
  { state with
    rest := state.rest.drop count, column := state.column + count, index := state.index + count }

/-- Passes a break. A carriage return and the line feed behind it are one break. -/
def skipBreak (state : State) : State :=
  match state.rest with
  | '\r' :: '\n' :: rest =>
    { state with rest := rest, line := state.line + 1, column := 0, index := state.index + 2 }
  | _ =>
    { state with
      rest := state.rest.tail, line := state.line + 1, column := 0, index := state.index + 1 }

/-- Passes everything up to the next break. -/
def skipLine (state : State) : State :=
  state.skipMany (state.rest.takeWhile fun c => !isBreak c).length

/-- Says whether a key or an item of a block may start here. -/
def withFresh (state : State) (value : Bool) : State := { state with fresh := value }

theorem length_skip_lt {state : State} {c : Char} {rest : List Char}
    (h : state.rest = c :: rest) : state.skip.rest.length < state.rest.length := by
  simp [skip, h]

theorem length_skipBreak_lt {state : State} {c : Char} {rest : List Char}
    (h : state.rest = c :: rest) : state.skipBreak.rest.length < state.rest.length := by
  fun_cases skipBreak state with
  | case1 rest heq =>
    rw [heq]
    exact Nat.lt_succ_of_lt (Nat.lt_succ_self _)
  | case2 => simp [h]

theorem length_skipLine_le (state : State) :
    state.skipLine.rest.length ≤ state.rest.length := by
  simp [skipLine, skipMany]

/-- Goes on to the next character that means something, past blanks, breaks and comments.
Within a block a break opens the place behind it to keys and items, and a tab is no blank in
front of them. -/
def toToken (flow : Bool) (state : State) : State :=
  match _ : state.rest with
  | [] => state
  | c :: _ =>
    if c = ' ' ∨ (c = '\t' ∧ (flow ∨ !state.fresh)) then toToken flow state.skip
    else if c = '#' then toToken flow state.skip.skipLine
    else if isBreak c then toToken flow (state.skipBreak.withFresh (state.fresh || !flow))
    else state
termination_by state.rest.length
decreasing_by
  · exact length_skip_lt ‹_›
  · exact Nat.lt_of_le_of_lt (length_skipLine_le _) (length_skip_lt ‹_›)
  · exact length_skipBreak_lt ‹_›

/-- Whether the text goes on with three times the same mark and a gap. -/
def atTriple (mark : Char) : List Char → Bool
  | a :: b :: c :: rest => a == mark && b == mark && c == mark && atGap rest
  | _ => false

/-- Whether a document starts or ends here. -/
def atMarker (state : State) : Bool :=
  state.column == 0 && (atTriple '-' state.rest || atTriple '.' state.rest)

/-- Whether the document has no more text here. -/
def atEnd (state : State) : Bool := state.rest.isEmpty || state.atMarker

/-- Whether a directive stands here. -/
def atDirective (state : State) : Bool := state.column == 0 && state.rest.head? == some '%'

/-- Whether a mark with a gap behind it stands here. -/
def atMark (state : State) (mark : Char) : Bool :=
  match state.rest with
  | c :: rest => c == mark && atGap rest
  | [] => false

end State

/-- Where the node to be read stands. -/
structure Context where
  /-- The column of the innermost block around it, or `-1` outside of all blocks. -/
  indent : Int
  /-- Whether it stands between brackets. -/
  flow : Bool
  /-- The short forms of tags. -/
  handles : List (String × String)
  deriving Repr

/-- The context in a block that starts in a given column. -/
def Context.inBlock (context : Context) (column : Nat) : Context :=
  { context with indent := column }

/-- The context between brackets. -/
def Context.inFlow (context : Context) : Context := { context with flow := true }

end EditBatch.Yaml
