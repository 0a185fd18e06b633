import SourceSurvey.Failure
import SourceSurvey.Number.Reading
import SourceSurvey.Text.Search
import SourceSurvey.Value.Basic
import SourceSurvey.Value.Calendar

/-!
# TOML literals

Texts, numbers, dates and times, and the places of the quotes in a line.
-/

namespace SourceSurvey.Toml

/-- The text without its first and its last character. -/
def inner (text : List Char) : List Char :=
  text.dropLast.drop 1

/-- The pieces of a text between the occurrences of a part, of which at most so many are looked at.
-/
def splitOnText (part : List Char) : Nat → List Char → List (List Char)
  | 0, text => [text]
  | n + 1, text =>
    match Text.find? part text with
    | none => [text]
    | some i => text.take i :: splitOnText part n (text.drop (i + part.length))

/-- How many backslashes end a text is odd. -/
def endsEscaped (text : List Char) : Bool :=
  (text.reverse.takeWhile (· == '\\')).length % 2 == 1

/-! ## Quotes in a line -/

/-- Pieces between single quotes, of which the last one goes on after a double quote as long as
their number is even. -/
def joinPieces (pieces : List (List Char)) : List (List Char) → List (List Char) × List (List Char)
  | [] => (pieces, [])
  | next :: others =>
    if pieces.length % 2 == 0 then
      let last := (pieces.getLast?).getD [] ++ '"' :: next
      joinPieces (pieces.dropLast ++ Text.splitAt '\'' last) others
    else (pieces, next :: others)

/-- The pieces of a line outside and inside its quotes, in turn. -/
def quotePieces (line : List Char) : List (List Char) :=
  let double := Text.splitAt '"' line
  let (single, double) := match double with
    | first :: second :: others =>
      if first.contains '\'' then joinPieces (Text.splitAt '\'' first) (second :: others)
      else ([], double)
    | _ => ([], double)
  match double with
  | [] => single
  | first :: others => single ++ Text.splitAt '\'' first ++ others

/-- How many times a part occurs in the pieces before the first one outside quotes that has it. -/
def countQuoted (part : List Char) (isQuoted : Bool) : List (List Char) → Nat
  | [] => 0
  | piece :: others =>
    if !isQuoted && Text.contains piece part then 0
    else
      (splitOnText part piece.length piece).length - 1 + countQuoted part (!isQuoted) others

/-! ## Texts -/

/-- The characters that stand for one character after a backslash. -/
def escapes : List (Char × Char) := [
    ('0', '\x00'), ('b', '\x08'), ('f', '\x0c'), ('n', '\n'), ('r', '\r'), ('t', '\t'),
    ('"', '"')]

/-- A text with every escape read; escapes of codes are kept as they are. -/
def unescape : List Char → Except DocumentProblem (List Char)
  | [] => .ok []
  | ['\\'] => .ok ['\\']
  | '\\' :: c :: rest => do
    let others ← unescape rest
    match escapes.lookup c with
    | some e => return e :: others
    | none =>
      if c == '\\' then return '\\' :: others
      else if c == 'u' || c == 'U' then return '\\' :: c :: others
      else .error .malformed
  | c :: rest => do return c :: (← unescape rest)

/-- The character of the code at the start of a text, with the rest of the text. Codes of surrogates
are refused. -/
def codeChar (length : Nat) (text : List Char) : Except DocumentProblem (List Char) :=
  let digits := text.take length
  match digits with
  | [] => .error (.fault .missingMember)
  | first :: others =>
    let isSurrogate := (first == 'd' || first == 'D') &&
      others.head?.any fun c => !("01234567".toList.contains c)
    match digits.mapM Number.hexDigit? with
    | none => .error .malformed
    | some values =>
      let code := Number.ofDigits 16 values
      if isSurrogate then .error .malformed
      else if [first] == digits && (first == 'd' || first == 'D') then
        .error (.fault .missingMember)
      else if 0x7FFFFFFF < code then .error (.fault .tooLarge)
      else if code.isValidChar then .ok (Char.ofNat code :: text.drop length)
      else .error .malformed

/-- A text with the codes after one kind of mark read, unless the mark itself is escaped. -/
def readCodes (mark : List Char) (length : Nat) (isEscaped : Bool) (before : List Char) :
    List (List Char) → Except DocumentProblem (List Char)
  | [] => .ok before
  | piece :: others =>
    if isEscaped then
      readCodes mark length (endsEscaped piece) (before ++ mark ++ piece) others
    else do
      let read ← codeChar length piece
      readCodes mark length false (before ++ read) others

/-- A text with all codes after one kind of mark read. -/
def readMarked (mark : Char) (length : Nat) (text : List Char) :
    Except DocumentProblem (List Char) :=
  match splitOnText ['\\', mark] text.length text with
  | first :: others => readCodes ['\\', mark] length (endsEscaped first) first others
  | [] => .ok text

/-- What follows the backslashes of a text are escapes. -/
def hasKnownEscapes (isEscaped : Bool) : List (List Char) → Bool
  | [] => true
  | [] :: others => hasKnownEscapes (!isEscaped) others
  | (c :: _) :: others =>
    let isKnown := (escapes.lookup c).isSome || c == 'u' || c == 'U' || isEscaped
    isKnown && hasKnownEscapes false others

/-- Nothing follows the closing quote of a text. The pieces are those between the quotes after the
opening one; the count is of the quotes in a row. -/
def endsAtQuote (isTriple isClosed : Bool) (count : Nat) : List (List Char) → Bool
  | [] => true
  | [] :: others =>
    if isTriple then endsAtQuote isTriple isClosed (count + 1) others
    else endsAtQuote isTriple true count others
  | piece :: others =>
    if endsEscaped piece then endsAtQuote isTriple isClosed count others
    else if isClosed then false
    else if !isTriple || 1 < count then endsAtQuote isTriple true count others
    else endsAtQuote isTriple isClosed 0 others

/-- The quote that opens a text closes it, or three quotes do both, and nothing follows. -/
def closesAtEnd (q : Char) (text : List Char) : Bool :=
  match Text.splitAt q (text.drop 1) with
  | [] :: [] :: pieces => endsAtQuote true false 0 pieces
  | pieces => endsAtQuote false false 0 pieces

/-- The text that a quoted text writes. -/
def quoted (q : Char) (text : List Char) : Except DocumentProblem (List Char) := do
  if !closesAtEnd q text then
    .error .malformed
  else
    let read ←
      if q == '"' then
        if !hasKnownEscapes false ((Text.splitAt '\\' text).drop 1) then .error .malformed
        else do unescape (← readMarked 'U' 8 (← readMarked 'u' 4 text))
      else pure text
    let isDoubled := read[1]? == some q && (read.length < 3 || read[2]? == some q)
    return inner (if isDoubled then inner (inner read) else read)

/-! ## Numbers -/

/-- A number in which no underscore and no zero stands where it may not. -/
def isStrictNumber (text : List Char) : Bool :=
  let n := Text.trim text
  let hasBadMark := Text.contains n ['_', '.'] || Text.contains n ['.', '_']
  match n with
  | [] => false
  | [c] => c != '_'
  | c :: d :: rest =>
    if c == '_' || n.getLast? == some '_' || hasBadMark then false
    else if c == '0' && !(".obx".toList.contains d) then false
    else
      let isSigned := c == '+' || c == '-'
      if isSigned && d == '0' && !rest.isEmpty && rest.head? != some '.' then false
      else !Text.contains (if isSigned then d :: rest else n) ['_', '_']

/-- A number, by the part of its text after the sign. -/
def unsigned (body : List Char) : Except DocumentProblem Value :=
  let text := body.filter (· != '_')
  let hasExponent := !text.contains 'x' && (text.contains 'e' || text.contains 'E')
  let real := fun (t : List Char) => match Number.real? t with
    | some x => Except.ok (Value.float x)
    | none => Except.error DocumentProblem.malformed
  if text.contains '.' || hasExponent then
    let endsInPoint := text.contains '.' && ((text.dropWhile (· != '.')).drop 1).isEmpty
    if endsInPoint || !(text.head?.any fun c => '0' ≤ c && c ≤ '9') then .error .malformed
    else real text
  else if String.ofList (Text.lower text) == "inf" || String.ofList (Text.lower text) == "nan" then
    real text
  else match Number.wholeOfMarked? text with
    | some n => .ok (.int n)
    | none => .error .malformed

/-- The number taken from zero. -/
def negative : Value → Value
  | .int n => .int (-n)
  | .float x => .float (if x.isZero then .finite false 0 Binary64.minExponent else x.neg)
  | v => v

/-- The number that a text writes. -/
def number (text : List Char) : Except DocumentProblem Value :=
  match text with
  | '-' :: body => (unsigned body).map negative
  | '+' :: body => unsigned body
  | body => unsigned body

/-! ## Dates and times -/

/-- The number in a part of a text. -/
def part? (text : List Char) (first last : Nat) : Option Int :=
  Number.whole? 10 ((text.take last).drop first)

/-- The text is a date, or a date with a time; its parts stand at fixed places. -/
def isDate (text : List Char) : Bool :=
  let found := do
    let year ← part? text 0 4
    let month ← part? text 5 7
    let day ← part? text 8 10
    let isDay := Calendar.isDate year month day
    if text.length == 10 then return isDay
    else
      let hour ← part? text 11 13
      let minute ← part? text 14 16
      let second ← part? text 17 19
      return isDay && Calendar.isTime hour minute second
  (text.drop 1).contains '-' && found.getD false

/-- An ASCII digit. -/
def isDigit (c : Char) : Bool :=
  '0' ≤ c && c ≤ '9'

/-- The hour, minute and second of a time at the start of a text. -/
def time? : List Char → Option (Nat × Nat × Nat)
  | a :: b :: ':' :: c :: d :: ':' :: e :: f :: _ =>
    if [a, b, c, d, e, f].all isDigit then
      let two := fun (x y : Char) => Number.ofDigits 10 [x.toNat - 48, y.toNat - 48]
      some (two a b, two c d, two e f)
    else none
  | _ => none

end SourceSurvey.Toml
