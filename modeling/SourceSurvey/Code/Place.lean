import SourceSurvey.Code.Header
import SourceSurvey.Comment.Strip

/-!
# Places in a file

A file is read at its places: each place is a line with the lines above it and the lines below it.
What is read at a place depends on the distance to other lines and never on the number of the
line, so that lines put before a declaration change its number and nothing else.
-/

namespace SourceSurvey

/-- A line of a file with its stripped copy. -/
structure SourceLine where
  raw : Line
  code : Line
deriving Repr, DecidableEq

/-- The lines of a file with their stripped copies. -/
def sourceLines (style : CommentRules) (lines : List Line) : List SourceLine :=
  List.zipWith SourceLine.mk lines (style.strip lines)

/-- A line of a file, the lines above it, nearest first, and the lines below it. -/
structure Place where
  above : List SourceLine
  here : SourceLine
  below : List SourceLine

/-- The places of the lines that follow given ones. -/
def placesFrom (above : List SourceLine) : List SourceLine → List Place
  | [] => []
  | line :: lines => ⟨above, line, lines⟩ :: placesFrom (line :: above) lines

/-- The places of a file. -/
def places (lines : List SourceLine) : List Place :=
  placesFrom [] lines

namespace Place

/-- The number of the line; the first line of a file has number one. -/
def number (p : Place) : Nat :=
  p.above.length + 1

/-- The stripped line. -/
def code (p : Place) : Line :=
  p.here.code

/-- The line as the file has it. -/
def raw (p : Place) : Line :=
  p.here.raw

/-- The stripped lines from here on. -/
def codeFromHere (p : Place) : List Line :=
  p.here.code :: p.below.map (·.code)

/-- The lines of the file from here on. -/
def rawFromHere (p : Place) : List Line :=
  p.here.raw :: p.below.map (·.raw)

/-- The places of the lines below. -/
def following (p : Place) : List Place :=
  placesFrom (p.here :: p.above) p.below

/-- How many lines a header may run over. -/
def headerWindow : Nat := 20

/-- The number of lines after this one that belong to the header begun here. -/
def headerExtent (p : Place) : Nat :=
  SourceSurvey.headerExtent headerWindow p.codeFromHere

/-- The header begun here, without comments. -/
def header (style : CommentRules) (p : Place) : List Char :=
  joinHeader (some style) (p.rawFromHere.take (p.headerExtent + 1))

/-- The decorator lines directly above. -/
def decorators (openers : List String) (p : Place) : List Line :=
  decoratorsAbove (openers.map (·.toList)) (p.above.map (·.raw))

/-- The number of lines after this one up to the end of the brace body opened here or below. -/
def braceExtent (p : Place) : Nat :=
  SourceSurvey.braceExtent p.codeFromHere

/-- The stripped lines of the brace body after this line. -/
def braceBody (p : Place) : List Line :=
  (p.below.map (·.code)).take p.braceExtent

/-- The places of the indentation body after the header begun here. -/
def indentedBody (p : Place) : List Place :=
  let after := p.following.drop p.headerExtent
  after.take (indentedExtent (Text.indentWidth p.code) (after.map (·.code)))

end Place

end SourceSurvey
