import SourceSurvey.Pattern.Basic

/-!
# Tags

What a node is: the written tag of a node, or the one that the text of a plain scalar implies.
-/

namespace SourceSurvey.Yaml

/-- What a node is. -/
inductive Tag where
  | null | bool | int | float | binary | timestamp | str | seq | map | set | omap | pairs
  /-- The key of entries that are merged in. -/
  | merge
  /-- The key of the value that a mapping stands for. -/
  | value
  /-- Something that no value is built for. -/
  | unknown
deriving Repr, DecidableEq, Inhabited

namespace Tag

/-- What the addresses of the standard tags begin with. -/
def standard : String := "tag:yaml.org,2002:"

/-- The last parts of the standard addresses. -/
def names : List (String × Tag) :=
  [("null", .null), ("bool", .bool), ("int", .int), ("float", .float), ("binary", .binary),
    ("timestamp", .timestamp), ("str", .str), ("seq", .seq), ("map", .map), ("set", .set),
    ("omap", .omap), ("pairs", .pairs), ("merge", .merge), ("value", .value)]

/-- The tag of an address. -/
def ofAddress (address : String) : Tag :=
  match names.find? fun (n, _) => standard ++ n == address with
  | some (_, t) => t
  | none => .unknown

end Tag

namespace Implicit

open Pattern

/-- A digit. -/
def isDigit (c : Char) : Bool :=
  '0' ≤ c && c ≤ '9'

/-- A digit or an underscore. -/
def isDigitMark (c : Char) : Bool :=
  isDigit c || c == '_'

/-- An optional sign. -/
def sign : Pattern Unit := do
  let _ ← opt (char fun c => c == '-' || c == '+')

/-- At least one digit, then digits and underscores. -/
def digits : Pattern Unit := do
  let _ ← char isDigit
  let _ ← run isDigitMark 0

/-- Groups of at most two digits below sixty after colons. -/
def sixtieths : Pattern Unit := do
  let _ ← many1 do
    lit ":"
    let _ ← opt (char fun c => '0' ≤ c && c ≤ '5')
    char isDigit

/-- An exponent with its sign. -/
def exponent : Pattern Unit := do
  let _ ← opt do
    let _ ← char fun c => c == 'e' || c == 'E'
    let _ ← char fun c => c == '-' || c == '+'
    run isDigit 1

/-- The words for truth values. -/
def boolWords : List String :=
  ["yes", "Yes", "YES", "no", "No", "NO", "true", "True", "TRUE", "false", "False", "FALSE",
    "on", "On", "ON", "off", "Off", "OFF"]

/-- The words for nothing. -/
def nullWords : List String :=
  ["~", "null", "Null", "NULL", ""]

/-- A floating-point number. -/
def float : Pattern Unit :=
  (do sign; digits; lit "."; let _ ← run isDigitMark 0; exponent; atEnd) <|>
  (do lit "."; digits; exponent; atEnd) <|>
  (do sign; digits; sixtieths; lit "."; let _ ← run isDigitMark 0; atEnd) <|>
  (do sign; lit "."; let _ ← oneOf ["inf", "Inf", "INF"]; atEnd) <|>
  (do lit "."; let _ ← oneOf ["nan", "NaN", "NAN"]; atEnd)

/-- A decimal that does not begin with zero. -/
def positive : Pattern Unit := do
  let _ ← char fun c => '1' ≤ c && c ≤ '9'
  let _ ← run isDigitMark 0

/-- A hexadecimal digit or an underscore. -/
def isHexMark (c : Char) : Bool :=
  isDigitMark c || ('a' ≤ c && c ≤ 'f') || ('A' ≤ c && c ≤ 'F')

/-- A whole number. -/
def int : Pattern Unit :=
  (do sign; lit "0b"; let _ ← run (fun c => c == '0' || c == '1' || c == '_') 1; atEnd) <|>
  (do sign; lit "0"; let _ ← run (fun c => ('0' ≤ c && c ≤ '7') || c == '_') 1; atEnd) <|>
  (do sign; (lit "0" <|> positive); atEnd) <|>
  (do sign; lit "0x"; let _ ← run isHexMark 1; atEnd) <|>
  (do sign; positive; sixtieths; atEnd)

/-- So many digits. -/
def exactly : Nat → Pattern (List Char)
  | 0 => return []
  | n + 1 => do return (← char isDigit) :: (← exactly n)

/-- One digit or two, two preferred. -/
def oneOrTwo : Pattern (List Char) :=
  runUpTo isDigit 2

/-- Blanks and tabs. -/
def isBlank (c : Char) : Bool :=
  c == ' ' || c == '\t'

/-- A time zone: its sign, hours and minutes, or nothing for the universal one. -/
def zone : Pattern (Option (Bool × List Char × List Char)) :=
  (do lit "Z"; return none) <|> do
    let c ← char fun c => c == '-' || c == '+'
    let hours ← oneOrTwo
    let minutes ← opt (do lit ":"; exactly 2)
    return some (c == '-', hours, minutes.getD [])

/-- The parts of a point in time, as they are written. -/
structure Moment where
  year : List Char
  month : List Char
  day : List Char
  /-- Hour, minute, second and the fraction of the second. -/
  time : Option (List Char × List Char × List Char × List Char) := none
  /-- The zone, if there is one. -/
  zone : Option (Option (Bool × List Char × List Char)) := none

/-- A time after a date, with its zone. -/
def timeOfDay : Pattern (List Char × List Char × List Char × List Char) := do
  (do let _ ← char (fun c => c == 'T' || c == 't')) <|> (do let _ ← run isBlank 1)
  let hour ← oneOrTwo
  lit ":"
  let minute ← exactly 2
  lit ":"
  let second ← exactly 2
  let fraction ← opt (do lit "."; run isDigit 0)
  return (hour, minute, second, fraction.getD [])

/-- A point in time. -/
def moment : Pattern Moment := do
  let year ← exactly 4
  lit "-"
  let month ← oneOrTwo
  lit "-"
  let day ← oneOrTwo
  (do
    let time ← timeOfDay
    let z ← opt (do let _ ← run isBlank 0; zone)
    atEnd
    return ⟨year, month, day, some time, z⟩) <|>
  (do
    atEnd
    return ⟨year, month, day, none, none⟩)

/-- The text of a plain scalar is a point in time: a date with two digits for month and day, or a
date with a time. -/
def isMoment (text : List Char) : Bool :=
  match moment.matchStart? text with
  | none => false
  | some m => m.time.isSome || (m.month.length == 2 && m.day.length == 2)

/-- What the text of a plain scalar implies. -/
def tag (text : List Char) : Tag :=
  if boolWords.contains (.ofList text) then .bool
  else if float.matches? text then .float
  else if int.matches? text then .int
  else if text == ['<', '<'] then .merge
  else if nullWords.contains (.ofList text) then .null
  else if isMoment text then .timestamp
  else if text == ['='] then .value
  else if text == ['!'] || text == ['&'] || text == ['*'] then .unknown
  else .str

end Implicit

end SourceSurvey.Yaml
