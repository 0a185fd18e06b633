import SourceSurvey.Code.Span
import SourceSurvey.Comment.Strip

/-!
# Declaration headers

The text of a header that runs over several lines, and the decorator lines above a declaration.
-/

namespace SourceSurvey

/-- Lines trimmed and joined by single blanks, without their trailing comments when a style is
given. -/
def joinHeader (style : Option CommentRules) (lines : List Line) : List Char :=
  let parts := match style with
    | some s => lines.map s.cutLineComment
    | none => lines
  [' '].intercalate (parts.map Text.trim)

/-- The header that begins on a line, with the index of its last line. Parentheses are counted on
the stripped copy and the text is taken from the file. -/
def headerFrom (style : Option CommentRules) (window : Nat) (code raw : List Line)
    (start : Nat) : List Char × Nat :=
  let extent := headerExtent window (code.drop start)
  (joinHeader style ((raw.drop start).take (extent + 1)), start + extent)

/-- The lines that begin with one of the openers, nearest first, skipping blank ones, up to the
first other line. -/
def decoratorsUpward (openers : List (List Char)) : List Line → List Line
  | [] => []
  | line :: lines =>
    let text := Text.trim line
    if openers.any (·.isPrefixOf text) then text :: decoratorsUpward openers lines
    else if text.isEmpty then decoratorsUpward openers lines
    else []

/-- The decorator lines directly above a declaration, from top to bottom. The lines above it are
given nearest first. -/
def decoratorsAbove (openers : List (List Char)) (above : List Line) : List Line :=
  (decoratorsUpward openers above).reverse

/-- The decorator lines directly above the line with an index; nothing if the index lies beyond the
end of the file. -/
def decoratorsBefore? (openers : List (List Char)) (lines : List Line) (index : Nat) :
    Option (List Line) :=
  if index ≤ lines.length then some (decoratorsAbove openers (lines.take index).reverse) else none

end SourceSurvey
