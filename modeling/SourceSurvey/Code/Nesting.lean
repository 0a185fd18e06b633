import SourceSurvey.Text.Trim

/-!
# Brackets and quotes on one line

A declaration's pieces are found by reading it once from the left with a bracket depth and the
open quote. Angle brackets nest only directly after a word character, so that comparisons stay
flat, and arrows close nothing.
-/

namespace SourceSurvey

/-- What surrounds a place in a declaration: the bracket depth, the open quote and the character
before. -/
structure Nesting where
  depth : Int
  quote : Option Char
  prev : Option Char
deriving Repr, DecidableEq

namespace Nesting

/-- The start of a text. -/
def start : Nesting := ⟨0, none, none⟩

/-- A quote character of any surveyed language. -/
def isQuote (c : Char) : Bool :=
  c == '"' || c == '\'' || c == '\x60'

/-- What a character outside quotes adds to the depth. -/
def depthChange (s : Nesting) (c : Char) : Int :=
  if c == '(' || c == '[' || c == '\x7b' then 1
  else if c == ')' || c == ']' || c == '\x7d' then -1
  else if c == '<' && s.prev.any Text.isWord then 1
  else if c == '>' && s.prev.any (fun p => p != '=' && p != '-') && 0 < s.depth then -1
  else 0

/-- The surroundings after a character. -/
def step (s : Nesting) (c : Char) : Nesting :=
  match s.quote with
  | some q =>
    { s with quote := if c == q && s.prev != some '\\' then none else some q, prev := some c }
  | none =>
    if isQuote c then { s with quote := some c, prev := some c }
    else { s with depth := s.depth + s.depthChange c, prev := some c }

/-- Outside all brackets and quotes. -/
def isTop (s : Nesting) : Bool :=
  s.quote.isNone && s.depth == 0

/-- The character stands for itself outside brackets and quotes: it opens and closes neither. -/
def isPlainTop (s : Nesting) (c : Char) : Bool :=
  s.isTop && !isQuote c && s.depthChange c == 0

end Nesting

/-- The pieces of a text between separators outside brackets and quotes, blanks and empty pieces
included. -/
def topLevelPieces (separator : Char) (s : Nesting) : List Char → List (List Char)
  | [] => [[]]
  | c :: cs =>
    if s.isTop && !Nesting.isQuote c && c == separator then
      [] :: topLevelPieces separator { s with prev := some c } cs
    else match topLevelPieces separator (s.step c) cs with
      | [] => [[c]]
      | piece :: pieces => (c :: piece) :: pieces

/-- The trimmed pieces of a text between separators outside brackets and quotes, without blank
ones. -/
def topLevelParts (separator : Char) (text : List Char) : List (List Char) :=
  ((topLevelPieces separator .start text).map Text.trim).filter (!·.isEmpty)

/-- The equals sign at this place belongs to a comparison or an arrow. -/
def isOperatorPart (s : Nesting) (following : List Char) : Bool :=
  following.head?.any (fun n => n == '=' || n == '>') ||
    s.prev.any fun p => p == '=' || p == '<' || p == '>' || p == '!'

/-- The position, in the rest of a text, of the target outside brackets and quotes. -/
def topLevelPositionFrom (target : Char) (s : Nesting) : List Char → Option Nat
  | [] => none
  | c :: cs =>
    if s.isPlainTop c && c == target && !(target == '=' && isOperatorPart s cs) then some 0
    else (topLevelPositionFrom target (s.step c) cs).map (· + 1)

/-- The position of the first target outside brackets and quotes. An equals sign counts only when
it assigns. -/
def topLevelPosition? (target : Char) (text : List Char) : Option Nat :=
  topLevelPositionFrom target .start text

/-- The number of characters before the bracket that brings the depth back to zero. -/
def closingFrom (opener closer : Char) (depth : Int) (quote prev : Option Char) :
    List Char → Option Nat
  | [] => none
  | c :: cs =>
    let next := fun depth quote => (closingFrom opener closer depth quote (some c) cs).map (· + 1)
    match quote with
    | some q => next depth (if c == q && prev != some '\\' then none else some q)
    | none =>
      if Nesting.isQuote c then next depth (some c)
      else if c == opener then next (depth + 1) none
      else if c == closer then
        if depth == 1 then some 0 else next (depth - 1) none
      else next depth none

/-- The position of the bracket that closes the one at the given position. -/
def closingBracket? (opener closer : Char) (text : List Char) (position : Nat) : Option Nat :=
  (closingFrom opener closer 0 none none (text.drop position)).map (· + position)

/-- The position of the parenthesis that closes the one at the given position. -/
def closingParen? (text : List Char) (position : Nat) : Option Nat :=
  closingBracket? '(' ')' text position

/-- The pieces of `name: type = default`; without a type the given word stands for it. -/
def annotatedParts (part untyped : List Char) :
    List Char × List Char × Option (List Char) :=
  let whole := Text.trim part
  let (main, default) :=
    match topLevelPosition? '=' whole with
    | some n => (Text.trim (whole.take n), some (Text.trim (whole.drop (n + 1))))
    | none => (whole, none)
  match topLevelPosition? ':' main with
  | some n =>
    let type := Text.trim (main.drop (n + 1))
    (Text.trim (main.take n), if type.isEmpty then untyped else type, default)
  | none => (main, untyped, default)

end SourceSurvey
