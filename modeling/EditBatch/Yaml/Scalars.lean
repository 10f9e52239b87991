import EditBatch.Text.Digit
import EditBatch.Yaml.State
set_option autoImplicit false

/-!
# Reading scalars

Scalars without quotes and scalars between quotes may go over several lines. The blanks and
breaks between two words of theirs are a gap: blanks alone stay as they are, a single break
becomes a space, and of several breaks the first one is dropped. Block scalars keep their lines.

## Main definitions

* `EditBatch.Yaml.Gap` — the blanks and breaks between two words.
* `EditBatch.Yaml.readPlain`, `EditBatch.Yaml.readSingle`, `EditBatch.Yaml.readDouble`,
  `EditBatch.Yaml.readBlock` — read a scalar of one style.
-/

namespace EditBatch.Yaml

/-- The blanks and breaks between two words of a scalar. -/
structure Gap where
  /-- The blanks in front of the first break. -/
  blanks : List Char := []
  /-- What the first break reads as. -/
  first : Option (List Char) := none
  /-- What the other breaks read as. -/
  more : List Char := []
  deriving DecidableEq, Repr

namespace Gap

/-- Whether there is neither a blank nor a break. -/
def isNone (gap : Gap) : Bool := gap.blanks.isEmpty && gap.first.isNone

/-- The gap with one more blank. Blanks behind a break do not count. -/
def addBlank (gap : Gap) (c : Char) : Gap :=
  if gap.first.isSome then gap else { gap with blanks := gap.blanks ++ [c] }

/-- The gap with one more break. -/
def addBreak (gap : Gap) (text : List Char) : Gap :=
  match gap.first with
  | none => { gap with first := some text }
  | some _ => { gap with more := gap.more ++ text }

/-- What the gap reads as. -/
def text (gap : Gap) : List Char :=
  match gap.first with
  | none => gap.blanks
  | some ['\n'] => if gap.more.isEmpty then [' '] else gap.more
  | some other => other ++ gap.more

end Gap

/-! ## Scalars without quotes -/

/-- The characters that have a meaning of their own at the start of a node. -/
def indicators : List Char := "-?:,[]\x7b\x7d#&*!|>'\"%@`".toList

/-- Whether a scalar without quotes can start here. -/
def startsPlain (flow : Bool) : List Char → Bool
  | [] => false
  | c :: rest =>
    if isBlank c || isBreak c then false
    else if !indicators.contains c then true
    else if c = '-' then !atGap rest
    else if c = '?' ∨ c = ':' then !flow && !atGap rest
    else false

/-- The brackets and the comma, which end a scalar between brackets. -/
def flowMarks : List Char := ",[]\x7b\x7d".toList

/-- Whether a scalar without quotes ends in front of the first of some characters. -/
def endsPlain (flow : Bool) (c : Char) (rest : List Char) : Bool :=
  (c == ':' && atGap rest) || (flow && flowMarks.contains c)

/-- Whether a colon between brackets has a mark behind it that makes it an error. -/
def badColon (c : Char) (rest : List Char) : Bool :=
  c == ':' && match rest with
    | next :: _ => next == '?' || flowMarks.contains next
    | [] => false

/-- Reads a scalar without quotes, some of which has been read, with a gap behind it. -/
def readPlainFrom (context : Context) (gap : Gap) (state : State) :
    Option (List Char × State) :=
  let finished := some ([], state.withFresh (state.fresh || gap.first.isSome))
  match _ : state.rest with
  | [] => finished
  | c :: rest =>
    if isBlank c then
      if gap.first.isSome && c == '\t' && (state.column : Int) ≤ context.indent then none
      else readPlainFrom context (gap.addBlank c) state.skip
    else if isBreak c then
      readPlainFrom context (gap.addBreak (breakText state.rest)) state.skipBreak
    else if !gap.isNone && (state.atMarker || c == '#'
        || (!context.flow && (state.column : Int) ≤ context.indent)) then finished
    else if context.flow && badColon c rest then none
    else if endsPlain context.flow c rest then finished
    else do
      let (text, after) ← readPlainFrom context {} state.skip
      return (gap.text ++ c :: text, after)
termination_by state.rest.length
decreasing_by
  · exact State.length_skip_lt ‹_›
  · exact State.length_skipBreak_lt ‹_›
  · exact State.length_skip_lt ‹_›

/-- Reads a scalar without quotes. If breaks follow it, a key or an item may start behind
them. -/
def readPlain (context : Context) (state : State) : Option (List Char × State) :=
  readPlainFrom context {} (state.withFresh false)

/-! ## Scalars between quotes -/

/-- Reads a scalar between single quotes, with a gap in front of what is left. -/
def readSingleFrom (gap : Gap) (state : State) : Option (List Char × State) :=
  match _ : state.rest with
  | [] => none
  | c :: rest =>
    if isBlank c then readSingleFrom (gap.addBlank c) state.skip
    else if isBreak c then readSingleFrom (gap.addBreak (breakText state.rest)) state.skipBreak
    else if state.atMarker then none
    else if c = '\'' then
      if rest.head? = some '\'' then do
        let (text, after) ← readSingleFrom {} state.skip.skip
        return (gap.text ++ '\'' :: text, after)
      else some (gap.text, state.skip)
    else do
      let (text, after) ← readSingleFrom {} state.skip
      return (gap.text ++ c :: text, after)
termination_by state.rest.length
decreasing_by
  · exact State.length_skip_lt ‹_›
  · exact State.length_skipBreak_lt ‹_›
  · have := State.length_skip_lt ‹_›
    simp only [State.skip, List.length_tail] at *
    omega
  · exact State.length_skip_lt ‹_›

/-- Reads a scalar between single quotes, from its opening quote on. -/
def readSingle (state : State) : Option (List Char × State) :=
  readSingleFrom {} (state.skip.withFresh false)

/-- The characters that a backslash and a letter stand for. -/
def shortEscape? : Char → Option Char
  | '0' => some '\x00'
  | 'a' => some '\x07'
  | 'b' => some '\x08'
  | 't' => some '\t'
  | '\t' => some '\t'
  | 'n' => some '\n'
  | 'v' => some '\x0b'
  | 'f' => some '\x0c'
  | 'r' => some '\r'
  | 'e' => some '\x1b'
  | ' ' => some ' '
  | '"' => some '"'
  | '/' => some '/'
  | '\\' => some '\\'
  | 'N' => some '\u0085'
  | '_' => some '\u00a0'
  | 'L' => some '\u2028'
  | 'P' => some '\u2029'
  | _ => none

/-- The character whose number is written by a given count of hexadecimal digits. -/
def hexChar? (count : Nat) (text : List Char) : Option Char := do
  let digits ← (text.take count).mapM (digit? 16)
  if digits.length < count then none
  else
    let number := digits.foldl (fun number digit => number * 16 + digit) 0
    if number.isValidChar then some (Char.ofNat number) else none

/-- The character of an escape, and the number of characters it takes behind its backslash. -/
def readEscape (text : List Char) : Option (Char × Nat) :=
  match text with
  | [] => none
  | 'x' :: rest => (hexChar? 2 rest).map fun c => (c, 3)
  | 'u' :: rest => (hexChar? 4 rest).map fun c => (c, 5)
  | 'U' :: rest => (hexChar? 8 rest).map fun c => (c, 9)
  | c :: _ => (shortEscape? c).map fun c => (c, 1)

/-- Reads a scalar between double quotes, with a gap in front of what is left. An escaped break
joins what it stands between. -/
def readDoubleFrom (gap : Gap) (state : State) : Option (List Char × State) :=
  match _ : state.rest with
  | [] => none
  | c :: rest =>
    if isBlank c then readDoubleFrom (gap.addBlank c) state.skip
    else if isBreak c then readDoubleFrom (gap.addBreak (breakText state.rest)) state.skipBreak
    else if state.atMarker then none
    else if c = '"' then some (gap.text, state.skip)
    else if c = '\\' then
      if rest.head?.any isBreak then do
        let (text, after) ← readDoubleFrom { first := some [] } state.skip.skipBreak
        return (gap.text ++ text, after)
      else do
        let (escaped, length) ← readEscape rest
        let (text, after) ← readDoubleFrom {} (state.skipMany (length + 1))
        return (gap.text ++ escaped :: text, after)
    else do
      let (text, after) ← readDoubleFrom {} state.skip
      return (gap.text ++ c :: text, after)
termination_by state.rest.length
decreasing_by
  · exact State.length_skip_lt ‹_›
  · exact State.length_skipBreak_lt ‹_›
  · have hskip := State.length_skip_lt ‹_›
    cases hrest : state.skip.rest with
    | nil => simp_all [State.skip]
    | cons d more =>
      have := State.length_skipBreak_lt hrest
      omega
  · simp only [State.skipMany, List.length_drop, List.length_cons, ‹state.rest = _›]
    omega
  · exact State.length_skip_lt ‹_›

/-- Reads a scalar between double quotes, from its opening quote on. -/
def readDouble (state : State) : Option (List Char × State) :=
  readDoubleFrom {} (state.skip.withFresh false)

/-! ## Block scalars -/

/-- What becomes of the breaks at the end of a block scalar. -/
inductive Chomp where
  /-- All are dropped. -/
  | strip
  /-- The first one stays. -/
  | clip
  /-- All stay. -/
  | keep
  deriving DecidableEq, Repr

/-- The mark for the breaks at the end, if there is one. -/
def chomp? : List Char → Option Chomp
  | '+' :: _ => some .keep
  | '-' :: _ => some .strip
  | _ => none

/-- The mark for the indentation, if there is one. A zero is an error. -/
def readIncrement (state : State) : Option (Option Nat × State) :=
  match state.rest with
  | c :: _ =>
    if c = '0' then none
    else if c.isDigit then some (some (c.toNat - '0'.toNat), state.skip)
    else some (none, state)
  | [] => some (none, state)

/-- The mark for the breaks at the end, or the rule without one. -/
def readChomp (state : State) : Option Chomp × State :=
  match chomp? state.rest with
  | some chomp => (some chomp, state.skip)
  | none => (none, state)

/-- Reads the marks of a block scalar, which may stand in either order. -/
def readMarks (state : State) : Option (Chomp × Option Nat × State) := do
  match readChomp state with
  | (some chomp, state) =>
    let (increment, state) ← readIncrement state
    return (chomp, increment, state)
  | (none, state) =>
    let (increment, state) ← readIncrement state
    if increment.isSome then
      let (chomp, state) := readChomp state
      return (chomp.getD .clip, increment, state)
    else return (.clip, none, state)

/-- Passes the spaces of an indentation, all of them if it is still unknown. -/
def skipIndent (indent : Option Nat) (state : State) : State :=
  let spaces := (state.rest.takeWhile (· == ' ')).length
  state.skipMany (match indent with
    | none => spaces
    | some indent => min spaces (indent - state.column))

/-- Passes empty lines and the indentation of the line behind them. Gives the breaks, and the
widest indentation met. -/
def readBreaks (indent : Option Nat) (widest : Nat) (fuel : Nat) (state : State) :
    Option (List Char × Nat × State) :=
  match fuel with
  | 0 => none
  | fuel + 1 =>
    let state := skipIndent indent state
    let widest := max widest state.column
    let short := match indent with
      | none => true
      | some indent => state.column < indent
    match state.rest with
    | [] => some ([], widest, state)
    | c :: _ =>
      if short && c == '\t' then none
      else if isBreak c then do
        let (breaks, widest, after) ← readBreaks indent widest fuel state.skipBreak
        return (breakText state.rest ++ breaks, widest, after)
      else some ([], widest, state)

/-- Reads the lines of a block scalar, each in the column `indent`. The break and the empty
lines in front of the next line are given, and whether the line before started with a blank;
two lines that start with none are joined in a folded scalar. -/
def readLines (folded : Bool) (indent : Nat) (fuel : Nat) (first more : List Char)
    (blank : Bool) (state : State) : Option (List Char × List Char × List Char × State) :=
  match fuel with
  | 0 => none
  | fuel + 1 =>
    match state.rest with
    | [] => some ([], first, more, state)
    | c :: _ =>
      if state.column ≠ indent then some ([], first, more, state)
      else do
        let joined :=
          if folded && first == ['\n'] && !blank && !isBlank c then
            if more.isEmpty then [' '] else more
          else first ++ more
        let line := state.rest.takeWhile fun c => !isBreak c
        let behind := state.skipLine
        let (breaks, _, next) ←
          readBreaks (some indent) 0 (behind.rest.length + 1)
            (if behind.rest.isEmpty then behind else behind.skipBreak)
        let (text, first, more, after) ←
          readLines folded indent fuel (breakText behind.rest) breaks (isBlank c) next
        return (joined ++ line ++ text, first, more, after)

/-- Passes the rest of the line with the marks, which may only be a comment. -/
def skipMarkLine (state : State) : Option State :=
  let state := state.skipMany (state.rest.takeWhile isBlank).length
  match state.rest with
  | [] => some state
  | c :: _ =>
    if c = '#' then
      let state := state.skipLine
      some (if state.rest.isEmpty then state else state.skipBreak)
    else if isBreak c then some state.skipBreak
    else none

/-- Reads a block scalar from its mark on. Its indentation is that of its first line, unless a
mark says by how much it is deeper than that of the block around. -/
def readBlock (context : Context) (folded : Bool) (state : State) :
    Option (List Char × State) := do
  let (chomp, increment, state) ← readMarks state.skip
  let state ← skipMarkLine state
  let known := increment.map fun increment => (max context.indent 0).toNat + increment
  let (breaks, widest, state) ← readBreaks known 0 (state.rest.length + 1) state
  let indent := known.getD (max widest (max (context.indent + 1).toNat 1))
  let (text, first, more, state) ←
    readLines folded indent (state.rest.length + 1) [] breaks false state
  let tail := match chomp with
    | .strip => []
    | .clip => first
    | .keep => first ++ more
  return (text ++ tail, state.withFresh true)

end EditBatch.Yaml
