import SourceSurvey.Text.CharClass

/-!
# Blanks at the ends of a text

Trimming, blank lines and the indentation of a line.
-/

namespace SourceSurvey.Text

/-- The text without the characters of a class at its end. -/
def trimEndWhile (p : Char → Bool) : List Char → List Char
  | [] => []
  | c :: cs =>
    match trimEndWhile p cs with
    | [] => if p c then [] else [c]
    | rest => c :: rest

/-- The text without the characters of a class at either end. -/
def trimWhile (p : Char → Bool) (text : List Char) : List Char :=
  trimEndWhile p (text.dropWhile p)

/-- The text without the blanks at its start. -/
def trimStart (text : List Char) : List Char :=
  text.dropWhile isSpace

/-- The text without the blanks at its end. -/
def trimEnd (text : List Char) : List Char :=
  trimEndWhile isSpace text

/-- The text without the blanks at either end. -/
def trim (text : List Char) : List Char :=
  trimEnd (trimStart text)

/-- A line of blanks only, or an empty one. -/
def isBlank (line : List Char) : Bool :=
  line.all isSpace

/-- The blanks a line begins with. -/
def indentation (line : List Char) : List Char :=
  line.takeWhile isSpace

/-- How many blanks a line begins with. -/
def indentWidth (line : List Char) : Nat :=
  (indentation line).length

end SourceSurvey.Text
