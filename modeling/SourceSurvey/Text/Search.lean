import SourceSurvey.Text.CharClass

/-!
# Occurrences of a text in a text

Where one text stands in another, and texts cut at a character.
-/

namespace SourceSurvey.Text

/-- The text starts with the given one. -/
def startsWith (text start : List Char) : Bool :=
  start.isPrefixOf text

/-- The text ends with the given one. -/
def endsWith (text ending : List Char) : Bool :=
  ending.isSuffixOf text

/-- The position of the first occurrence of a part. -/
def find? (part : List Char) : List Char → Option Nat
  | [] => if part.isEmpty then some 0 else none
  | c :: cs => if part.isPrefixOf (c :: cs) then some 0 else (find? part cs).map (· + 1)

/-- The position of the first occurrence of a part at or after the given position. -/
def findFrom? (part text : List Char) (start : Nat) : Option Nat :=
  if start ≤ text.length then (find? part (text.drop start)).map (· + start) else none

/-- The part occurs somewhere in the text. -/
def contains (text part : List Char) : Bool :=
  (find? part text).isSome

/-- The pieces of a text between the characters of a class; always at least one. -/
def splitWhere (p : Char → Bool) : List Char → List (List Char)
  | [] => [[]]
  | c :: cs =>
    if p c then [] :: splitWhere p cs
    else match splitWhere p cs with
      | [] => [[c]]
      | piece :: pieces => (c :: piece) :: pieces

/-- The pieces of a text between the occurrences of a character; always at least one. -/
def splitAt (separator : Char) (text : List Char) : List (List Char) :=
  splitWhere (· == separator) text

/-- The pieces of a text between blanks, without empty ones. -/
def fields (text : List Char) : List (List Char) :=
  (splitWhere isSpace text).filter (!·.isEmpty)

/-- What follows the last occurrence of a character, or the whole text. -/
def afterLast (separator : Char) (text : List Char) : List Char :=
  ((splitAt separator text).getLast?).getD []

/-- What precedes the first occurrence of a character, or the whole text. -/
def beforeFirst (separator : Char) (text : List Char) : List Char :=
  text.takeWhile (· != separator)

/-- Every maximal run of characters of a class is replaced by one text. -/
def replaceRuns (p : Char → Bool) (replacement : List Char) : List Char → List Char
  | [] => []
  | [c] => if p c then replacement else [c]
  | c :: d :: cs =>
    if p c then
      if p d then replaceRuns p replacement (d :: cs)
      else replacement ++ replaceRuns p replacement (d :: cs)
    else c :: replaceRuns p replacement (d :: cs)

/-- Texts joined with a separator between neighbours. -/
def join (separator : List Char) (texts : List (List Char)) : List Char :=
  separator.intercalate texts

end SourceSurvey.Text
