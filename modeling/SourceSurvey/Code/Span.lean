import SourceSurvey.Text.Search
import SourceSurvey.Text.Trim
import SourceSurvey.Text.Lines

/-!
# Extents of declarations

How many lines the body of a declaration takes: by indentation, by braces, and for a header whose
parentheses run over several lines. All functions read stripped lines.
-/

namespace SourceSurvey

/-! ## Indentation -/

/-- The number of lines that belong to a body deeper than the given indentation. The body ends with
its last line that is not blank. -/
def indentedExtent (base : Nat) : List Line → Nat
  | [] => 0
  | line :: lines =>
    if Text.isBlank line then
      match indentedExtent base lines with
      | 0 => 0
      | n + 1 => n + 2
    else if Text.indentWidth line ≤ base then 0
    else indentedExtent base lines + 1

/-- The index of the last line of the body that belongs to a header line, looked for from the given
line on; nothing if there is no such header. -/
def indentedEnd? (lines : List Line) (header first : Nat) : Option Nat :=
  lines[header]?.map fun line =>
    let extent := indentedExtent (Text.indentWidth line) (lines.drop first)
    max (if extent = 0 then header else first + extent - 1) (first - 1)

/-! ## Braces -/

/-- How far a scan for the closing brace has come. -/
structure BraceScan where
  depth : Int
  parens : Nat
  opened : Bool
deriving Repr, DecidableEq

namespace BraceScan

/-- Nothing is open. -/
def start : BraceScan := ⟨0, 0, false⟩

/-- Braces count only outside parentheses. -/
def char (s : BraceScan) (c : Char) : BraceScan :=
  if c == '(' then { s with parens := s.parens + 1 }
  else if c == ')' then { s with parens := s.parens - 1 }
  else if s.parens != 0 then s
  else if c == '\x7b' then { s with depth := s.depth + 1, opened := true }
  else if c == '\x7d' then { s with depth := s.depth - 1 }
  else s

/-- The scan after a line. -/
def line (s : BraceScan) (l : Line) : BraceScan :=
  l.foldl char s

end BraceScan

/-- A line that ends a declaration without a body: one closed by a semicolon. -/
def endsStatement (line : Line) : Bool :=
  (Text.trim line).getLast? == some ';'

/-- A first line that holds a whole expression-bodied arrow. -/
def isWholeArrow (line : Line) : Bool :=
  let text := Text.trim line
  Text.contains text ['=', '>'] &&
    !(Text.endsWith text ['=', '>'] || Text.endsWith text ['('] || Text.endsWith text [','])

/-- The number of lines after the first one up to the line where the scan ends. -/
def braceExtentFrom (s : BraceScan) (isFirst : Bool) : List Line → Nat
  | [] => 0
  | [_] => 0
  | line :: next :: lines =>
    let after := s.line line
    if after.opened && after.depth ≤ 0 then 0
    else if !after.opened && (endsStatement line || (isFirst && isWholeArrow line)) then 0
    else braceExtentFrom after false (next :: lines) + 1

/-- The number of lines after the first one up to the line where the brace body opened in these
lines closes, or up to the last line if it never does. -/
def braceExtent (lines : List Line) : Nat :=
  braceExtentFrom .start true lines

/-- The index of the line where the brace body opened at or after a line closes. -/
def braceEnd (lines : List Line) (start : Nat) : Int :=
  if start < lines.length then start + braceExtent (lines.drop start) else lines.length - 1

/-- Opening braces of a line. -/
def openBraces (line : Line) : Nat :=
  line.count '\x7b'

/-- Closing braces of a line. -/
def closeBraces (line : Line) : Nat :=
  line.count '\x7d'

/-- The brace depth at the start of every line, from the given depth on. A closing brace too many
does not take the depth below zero. -/
def depthsOfLinesFrom (depth : Nat) : List Line → List Nat
  | [] => []
  | line :: lines => depth :: depthsOfLinesFrom (depth + openBraces line - closeBraces line) lines

/-- The brace depth at the start of every line. -/
def depthsOfLines (lines : List Line) : List Nat :=
  depthsOfLinesFrom 0 lines

/-! ## Headers -/

/-- Opening less closing parentheses of a line. -/
def parenBalance (line : Line) : Int :=
  (line.count '(' : Int) - line.count ')'

/-- The number of lines after the first one up to the line that brings the balance down to zero. -/
def headerExtentFrom (balance : Int) : List Line → Option Nat
  | [] => none
  | line :: lines =>
    let after := balance + parenBalance line
    if after ≤ 0 then some 0 else (headerExtentFrom after lines).map (· + 1)

/-- The number of lines after the first one that belong to the header begun there: those up to the
end of its parameter list, within a window of lines; none if the list does not end there. -/
def headerExtent (window : Nat) (lines : List Line) : Nat :=
  match lines with
  | [] => 0
  | first :: _ =>
    if first.contains '(' then (headerExtentFrom 0 (lines.take window)).getD 0 else 0

end SourceSurvey
