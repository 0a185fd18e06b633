import SourceSurvey.Failure
import SourceSurvey.Text.CharClass

/-!
# The layout of a TOML text

Notes are blanked, and an array that is broken over several lines is put on one. Keys are checked on
the way: every one needs a value on its line, and no sign may stand in it outside quotes.
-/

namespace SourceSurvey.Toml.Layout

/-- Where in a key the text is. -/
inductive KeyState where
  /-- In no key. -/
  | outside
  /-- In a name. -/
  | name
  /-- After a name, before a dot or an equal sign. -/
  | after
deriving Repr, DecidableEq

/-- What is known after a part of the text. -/
structure State where
  chars : Array Char
  key : KeyState := .outside
  /-- The quote that is open. -/
  quote : Option Char := none
  /-- The open quote is a triple one. -/
  isMultiline : Bool := false
  /-- How many brackets of arrays are open. -/
  arrays : Int := 0
  /-- The header of a list of tables is open. -/
  inListHeader : Bool := false
  /-- The header of a table is open. -/
  inHeader : Bool := false
  atLineStart : Bool := true
  /-- The key has a dot. -/
  isDotted : Bool := false
  /-- A note reaches to the end of the text. -/
  isFinished : Bool := false

namespace State

/-- The character so many places before a position; before the start of the text its end is seen. -/
def back? (s : State) (i k : Nat) : Option Char :=
  if k ≤ i then s.chars[i - k]?
  else if k - i ≤ s.chars.size then s.chars[s.chars.size - (k - i)]?
  else none

/-- The number of backslashes that end so many places before a position is odd. -/
def isEscaped (s : State) (i k : Nat) : Nat → Bool
  | 0 => false
  | n + 1 => if s.back? i k == some '\\' then !(s.isEscaped i (k + 1) n) else false

/-- No quote and no header is open. -/
def isPlain (s : State) : Bool :=
  s.quote.isNone && !s.inHeader && !s.inListHeader

/-- A name goes on after blanks or a dot: the next character is part of it. -/
def resumeName (i : Nat) (s : State) : Except DocumentProblem State :=
  match s.chars[i + 1]? with
  | none => .error (.fault .missingMember)
  | some c => .ok (if !Text.isSpace c && c != '.' then { s with key := .name } else s)

/-- A character of a key that is not its end. Nothing if the character is none. -/
def keyPart? (i : Nat) (c : Char) (s : State) : Except DocumentProblem (Option State) :=
  match s.quote with
  | some q =>
    -- before the start of the text nothing is looked at here
    if c == q && !s.isEscaped i 1 i then .ok (some { s with key := .after, quote := none })
    else .ok (some s)
  | none =>
    if s.key == .name then
      if Text.isSpace c then .ok (some { s with key := .after })
      else if c == '.' then .ok (some { s with isDotted := true })
      else if Text.isAlphanumeric c || c == '_' || c == '-' then .ok (some s)
      else if s.isDotted && s.back? i 1 == some '.' && (c == '"' || c == '\'') then
        .ok (some { s with quote := some c })
      else .ok none
    else if Text.isSpace c then
      if s.isDotted then (s.resumeName i).map some else .ok (some s)
    else if c == '.' then ({ s with isDotted := true }.resumeName i).map some
    else .ok none

/-- A quote of a value, or of the start of a key. -/
def atQuote (i : Nat) (c : Char) (s : State) : State :=
  if s.quote.any (· != c) then s
  else
    let isSecond := s.back? i 1 == some c
    let isTriple := isSecond && s.back? i 2 == some c
    let isEscaped := c == '"' && (!isSecond || isTriple) &&
      s.isEscaped i (if isTriple then 3 else 1) (2 * s.chars.size)
    if isEscaped then s
    else if isTriple then
      { s with isMultiline := !s.isMultiline, quote := if s.isMultiline then none else some c }
    else { s with quote := if s.quote.isSome then none else some c }

/-- A note is blanked up to the end of its line. The bound is on the number of characters. -/
def blankNote (i : Nat) (s : State) : Nat → State
  | 0 => s
  | n + 1 =>
    match s.chars[i]? with
    | none => { s with isFinished := true }
    | some '\n' => s
    | some _ => { s with chars := s.chars.setIfInBounds i ' ' }.blankNote (i + 1) n

/-- An opening bracket. -/
def atOpening (i : Nat) (s : State) : State :=
  if !s.isPlain then s
  else if s.atLineStart then
    if s.chars[i + 1]? == some '[' then { s with inListHeader := true }
    else { s with inHeader := true }
  else { s with arrays := s.arrays + 1 }

/-- A closing bracket. -/
def atClosing (i : Nat) (s : State) : State :=
  if s.quote.isSome then s
  else if s.inHeader then { s with inHeader := false }
  else if s.inListHeader then
    if s.back? i 1 == some ']' then { s with inListHeader := false } else s
  else { s with arrays := s.arrays - 1 }

/-- A line end. Two quotes before it in a multi-line text are moved behind it, so that a line end
right after the opening of such a text is no part of it. -/
def atLineEnd (i : Nat) (s : State) : Except DocumentProblem State :=
  if s.quote.isSome || s.isMultiline then
    if !s.isMultiline then .error .malformed
    else
      match s.back? i 1 with
      | some q =>
        if (q == '"' || q == '\'') && s.back? i 2 == some q then
          let joined := s.chars.setIfInBounds i q
          .ok { s with
            chars := if s.back? i 3 == some q then joined.setIfInBounds (i - 3) ' ' else joined }
        else .ok s
      | none => .ok s
  else if s.arrays != 0 then .ok { s with chars := s.chars.setIfInBounds i ' ' }
  else .ok { s with atLineStart := true }

/-- The first character of a line that is neither blank nor part of a note. -/
def atFirst (i : Nat) (s : State) : Except DocumentProblem State :=
  match s.chars[i]? with
  | none | some ' ' | some '\t' => .ok s
  | some c =>
    if !s.atLineStart then .ok s
    else if s.inHeader || s.inListHeader then .ok { s with atLineStart := false }
    else if c == '=' then .error .malformed
    else .ok { s with atLineStart := false, key := .name }

/-- A character that is no part of a key. -/
def valuePart (i : Nat) (c : Char) (s : State) : Except DocumentProblem State :=
  let s := if c == '\'' || c == '"' then s.atQuote i c else s
  let s := if c == '#' && s.isPlain then s.blankNote i (s.chars.size + 1) else s
  if s.isFinished then .ok s
  else
    let s := if c == '[' then s.atOpening i else if c == ']' then s.atClosing i else s
    if c == '\n' then s.atLineEnd i else s.atFirst i

/-- The character at a position. -/
def step (s : State) (i : Nat) : Except DocumentProblem State :=
  match s.chars[i]? with
  | none => .ok s
  | some c =>
    if s.isFinished then .ok s
    else if s.key == .outside then s.valuePart i c
    else if c == '\n' then .error .malformed
    else do
      match ← s.keyPart? i c with
      | some t => return t
      | none =>
        if c == '=' then valuePart i c { s with key := .outside, isDotted := false }
        else .error .malformed

end State

/-- The text laid out: without notes and with every array on one line. -/
def layOut (text : List Char) : Except DocumentProblem (List Char) := do
  let last ← (List.range text.length).foldlM State.step { chars := text.toArray }
  if last.key != .outside || (last.quote.isSome && last.isMultiline) then .error .malformed
  else return last.chars.toList

end SourceSurvey.Toml.Layout
