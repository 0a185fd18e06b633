import SourceSurvey.Text.CharClass

/-!
# Lines of a text

A line ends at a line feed; a carriage return directly before it belongs to the line end. Form
feeds, lone carriage returns and the separators of Unicode stay inside their line.
-/

namespace SourceSurvey

/-- One line of a file, without its line end. -/
abbrev Line := List Char

namespace Text

/-- The lines of a text. A line end that closes the text starts no further line. -/
def splitLines : List Char → List Line
  | [] => []
  | '\n' :: rest => [] :: splitLines rest
  | '\r' :: '\n' :: rest => [] :: splitLines rest
  | c :: rest =>
    match splitLines rest with
    | [] => [[c]]
    | line :: lines => (c :: line) :: lines

/-- The text with every carriage return, alone or before a line feed, made one line feed. -/
def unifyLineEnds : List Char → List Char
  | [] => []
  | '\r' :: '\n' :: rest => '\n' :: unifyLineEnds rest
  | '\r' :: rest => '\n' :: unifyLineEnds rest
  | c :: rest => c :: unifyLineEnds rest

/-- A character that ends a line of a requirement list. -/
def isLineBoundary (c : Char) : Bool :=
  let n := c.toNat
  (10 ≤ n && n ≤ 13) || (28 ≤ n && n ≤ 30) || n == 0x85 || n == 0x2028 || n == 0x2029

/-- The lines of a text that ends its lines at every boundary character of Unicode. -/
def splitAtBoundaries : List Char → List Line
  | [] => []
  | '\r' :: '\n' :: rest => [] :: splitAtBoundaries rest
  | c :: rest =>
    if isLineBoundary c then [] :: splitAtBoundaries rest
    else match splitAtBoundaries rest with
      | [] => [[c]]
      | line :: lines => (c :: line) :: lines

/-- Lines joined by line feeds, with none at the end. -/
def joinLines (lines : List Line) : List Char :=
  ['\n'].intercalate lines

end Text

end SourceSurvey
