import SourceSurvey.Pattern.Basic
import SourceSurvey.Text.Trim

/-!
# Types of literals

The coarse type of a value from its spelling, in the words of a language family.
-/

namespace SourceSurvey

/-- The words of a language family for the types of literals. -/
structure LiteralNames where
  bool : String
  int : String
  float : String
  string : String
  list : String
  map : String
  tuple : String
  unknown : String
deriving Repr, DecidableEq

/-- What a spelling shows about a value. -/
inductive LiteralKind where
  | bool | int | float | string | list | map | tuple | unknown
deriving Repr, DecidableEq

/-- The word of a family for a kind. -/
def LiteralNames.name (names : LiteralNames) : LiteralKind → String
  | .bool => names.bool
  | .int => names.int
  | .float => names.float
  | .string => names.string
  | .list => names.list
  | .map => names.map
  | .tuple => names.tuple
  | .unknown => names.unknown

namespace LiteralKind

/-- Digits and underscores after one digit, with or without a minus sign before. -/
def digits : Pattern Unit := do
  let _ ← Pattern.opt (.lit "-")
  let _ ← Pattern.char Text.isDigit
  let _ ← Pattern.run (fun c => Text.isDigit c || c == '_') 0

/-- A whole number. -/
def integer : Pattern Unit := do
  digits
  Pattern.atEnd

/-- A number with a decimal point and perhaps an exponent. -/
def decimal : Pattern Unit := do
  digits
  Pattern.lit "."
  let _ ← Pattern.run Text.isDigit 1
  let _ ← Pattern.opt do
    let _ ← Pattern.char fun c => c == 'e' || c == 'E'
    let _ ← Pattern.opt (Pattern.char fun c => c == '-' || c == '+')
    Pattern.run Text.isDigit 1
  Pattern.atEnd

/-- Spellings of the truth values. -/
def truthValues : List String :=
  ["True", "False", "true", "false", "TRUE", "FALSE"]

/-- Starts of a quoted text. -/
def stringStarts : List String :=
  ["'", "\"", "\x60", "f\"", "f'", "r\"", "r'", "b\"", "b'"]

/-- The spelling without blanks and closing semicolons. -/
def spelling (value : List Char) : List Char :=
  Text.trim (Text.trimEndWhile (· == ';') (Text.trim value))

/-- The kind of a value from its spelling. -/
def ofText (value : List Char) : LiteralKind :=
  let v := spelling value
  if truthValues.any (·.toList == v) then .bool
  else if integer.matches? v then .int
  else if decimal.matches? v then .float
  else if stringStarts.any (·.toList.isPrefixOf v) then .string
  else if "[".toList.isPrefixOf v || "array(".toList.isPrefixOf v then .list
  else if "\x7b".toList.isPrefixOf v then .map
  else if "(".toList.isPrefixOf v then .tuple
  else .unknown

end LiteralKind

/-- The type of a value from its spelling, in the words of a family. -/
def literalType (names : LiteralNames) (value : List Char) : String :=
  names.name (.ofText value)

end SourceSurvey
