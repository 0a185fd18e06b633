import SourceSurvey.Failure
import SourceSurvey.Number.Reading
import SourceSurvey.Value.Basic

/-!
# JSON documents

Reading a document, and writing one in ASCII with an indentation of two blanks. Beside the standard
form the reader knows the words for not-a-number and the infinities; of two equal keys the last one
counts.
-/

namespace SourceSurvey.Json

/-- Blanks between the parts of a document. -/
def isBlank (c : Char) : Bool :=
  c == ' ' || c == '\t' || c == '\n' || c == '\r'

/-- The text without blanks at its start. -/
def skipBlanks (text : List Char) : List Char :=
  text.dropWhile isBlank

/-- An ASCII digit. -/
def isDigit (c : Char) : Bool :=
  '0' ≤ c && c ≤ '9'

/-- The number that ASCII digits write. -/
def digitsValue (digits : List Char) : Nat :=
  digits.foldl (fun n c => n * 10 + (c.toNat - '0'.toNat)) 0

/-- The number of four hexadecimal digits at the start of a text. -/
def hexQuad? : List Char → Option (Nat × List Char)
  | a :: b :: c :: d :: rest => do
    let high := (← Number.hexDigit? a) * 16 + (← Number.hexDigit? b)
    let low := (← Number.hexDigit? c) * 16 + (← Number.hexDigit? d)
    return (high * 256 + low, rest)
  | _ => none

/-- The character after a backslash that stands for one character. -/
def simpleEscape? (c : Char) : Option Char :=
  match c with
  | '"' => some '"'
  | '\\' => some '\\'
  | '/' => some '/'
  | 'b' => some '\x08'
  | 'f' => some '\x0c'
  | 'n' => some '\n'
  | 'r' => some '\r'
  | 't' => some '\t'
  | _ => none

/-- The character of a unit, with the rest of the text: a high surrogate joins the low one written
after it. -/
def unitChar (unit : Nat) (rest : List Char) : Char × List Char :=
  if 0xD800 ≤ unit && unit < 0xDC00 then
    match rest with
    | '\\' :: 'u' :: more =>
      match hexQuad? more with
      | some (low, after) =>
        if 0xDC00 ≤ low && low < 0xE000 then
          (Char.ofNat (0x10000 + (unit - 0xD800) * 0x400 + (low - 0xDC00)), after)
        else ('\uFFFD', rest)
      | none => ('\uFFFD', rest)
    | _ => ('\uFFFD', rest)
  else if 0xDC00 ≤ unit && unit < 0xE000 then ('\uFFFD', rest)
  else (Char.ofNat unit, rest)

/-- The rest of a quoted text after its opening quote, with what follows its closing one. Every step
takes a character, so the bound is the length of the text. -/
def quotedUpTo : Nat → List Char → Option (List Char × List Char)
  | 0, _ => none
  | _ + 1, [] => none
  | _ + 1, '"' :: rest => some ([], rest)
  | n + 1, '\\' :: 'u' :: rest => do
    let (unit, after) ← hexQuad? rest
    let (c, more) := unitChar unit after
    let (t, last) ← quotedUpTo n more
    return (c :: t, last)
  | n + 1, '\\' :: e :: rest => do
    let c ← simpleEscape? e
    let (t, last) ← quotedUpTo n rest
    return (c :: t, last)
  | n + 1, c :: rest => do
    if c.toNat < 32 || c == '\\' then none
    else
      let (t, last) ← quotedUpTo n rest
      return (c :: t, last)

/-- The rest of a quoted text after its opening quote, with what follows its closing one. -/
def quoted (text : List Char) : Option (List Char × List Char) :=
  quotedUpTo (text.length + 1) text

/-- A fraction at the start of a text: its digits. -/
def fraction (text : List Char) : List Char × List Char :=
  match text with
  | '.' :: rest =>
    match rest.takeWhile isDigit with
    | [] => ([], text)
    | ds => (ds, rest.dropWhile isDigit)
  | _ => ([], text)

/-- An exponent at the start of a text. -/
def exponent (text : List Char) : Option Int × List Char :=
  match text with
  | e :: rest =>
    if e == 'e' || e == 'E' then
      let (negative, body) := match rest with
        | '-' :: r => (true, r)
        | '+' :: r => (false, r)
        | r => (false, r)
      match body.takeWhile isDigit with
      | [] => (none, text)
      | ds =>
        let n : Int := digitsValue ds
        (some (if negative then -n else n), body.dropWhile isDigit)
    else (none, text)
  | [] => (none, text)

/-- The number at the start of a text. It is whole unless it has a fraction or an exponent. -/
def number? (text : List Char) : Except DocumentProblem (Value × List Char) :=
  let (negative, body) := match text with
    | '-' :: rest => (true, rest)
    | rest => (false, rest)
  let digits := match body with
    | '0' :: _ => ['0']
    | rest => rest.takeWhile isDigit
  if digits.isEmpty then .error .malformed
  else
    let (decimals, afterFraction) := fraction (body.drop digits.length)
    let (power, rest) := exponent afterFraction
    if decimals.isEmpty && power.isNone then
      if Number.maxDigits < digits.length then .error (.fault .meaningless)
      else
        let n : Int := digitsValue digits
        .ok (.int (if negative then -n else n), rest)
    else
      let scale := power.getD 0 - decimals.length
      .ok (.float (.ofDecimal negative (digitsValue (digits ++ decimals)) scale), rest)

/-- The words that stand for values. -/
def words : List (String × Value) :=
  [("null", .null), ("true", .bool true), ("false", .bool false), ("NaN", .float .nan),
    ("Infinity", .float (.infinite false)), ("-Infinity", .float (.infinite true))]

mutual

/-- The value at the start of a text, with what follows it. The bound is on the number of parts. -/
def value : Nat → List Char → Except DocumentProblem (Value × List Char)
  | 0, _ => .error .malformed
  | n + 1, text =>
    match text with
    | '"' :: rest =>
      match quoted rest with
      | some (s, after) => .ok (.string (.ofList s), after)
      | none => .error .malformed
    | '[' :: rest =>
      match skipBlanks rest with
      | ']' :: after => .ok (.list [], after)
      | more => do
        let (items, after) ← items n more
        return (.list items, after)
    | '\x7b' :: rest =>
      match skipBlanks rest with
      | '\x7d' :: after => .ok (.mapping [], after)
      | more => do
        let (entries, after) ← entries n [] more
        return (.mapping entries, after)
    | _ =>
      match words.find? fun (w, _) => w.toList.isPrefixOf text with
      | some (w, v) => .ok (v, text.drop w.length)
      | none => number? text

/-- The items of a list from one of them on. -/
def items : Nat → List Char → Except DocumentProblem (List Value × List Char)
  | 0, _ => .error .malformed
  | n + 1, text => do
    let (first, after) ← value n text
    match skipBlanks after with
    | ']' :: rest => return ([first], rest)
    | ',' :: rest =>
      let (others, last) ← items n (skipBlanks rest)
      return (first :: others, last)
    | _ => .error .malformed

/-- The entries of a mapping from one of them on, added to those read before. -/
def entries : Nat → List (Value × Value) → List Char →
    Except DocumentProblem (List (Value × Value) × List Char)
  | 0, _, _ => .error .malformed
  | n + 1, found, text =>
    match text with
    | '"' :: rest =>
      match quoted rest with
      | none => .error .malformed
      | some (key, afterKey) =>
        match skipBlanks afterKey with
        | ':' :: more => do
          let (v, after) ← value n (skipBlanks more)
          let all := Value.setEntry (.string (.ofList key)) v found
          match skipBlanks after with
          | '\x7d' :: last => return (all, last)
          | ',' :: last => entries n all (skipBlanks last)
          | _ => .error .malformed
        | _ => .error .malformed
    | _ => .error .malformed

end

/-- The document that a text writes. -/
def parse (text : List Char) : Except DocumentProblem Value :=
  match value (text.length + 1) (skipBlanks text) with
  | .error e => .error e
  | .ok (v, rest) => if (skipBlanks rest).isEmpty then .ok v else .error .malformed

/-! ## Writing -/

/-- Four hexadecimal digits in small letters. -/
def hexQuad (n : Nat) : List Char :=
  let ds := Nat.toDigits 16 n
  List.replicate (4 - ds.length) '0' ++ ds

/-- A character inside a quoted text, in ASCII. -/
def escaped (c : Char) : List Char :=
  let n := c.toNat
  if c == '"' then ['\\', '"']
  else if c == '\\' then ['\\', '\\']
  else if c == '\n' then ['\\', 'n']
  else if c == '\r' then ['\\', 'r']
  else if c == '\t' then ['\\', 't']
  else if n == 8 then ['\\', 'b']
  else if n == 12 then ['\\', 'f']
  else if 32 ≤ n && n < 127 then [c]
  else if n < 0x10000 then '\\' :: 'u' :: hexQuad n
  else
    let m := n - 0x10000
    '\\' :: 'u' :: hexQuad (0xD800 + m / 0x400) ++ '\\' :: 'u' :: hexQuad (0xDC00 + m % 0x400)

/-- A text in double quotes, in ASCII. -/
def quote (s : String) : String :=
  .ofList ('"' :: s.toList.flatMap escaped ++ ['"'])

/-- A line feed and the indentation of a depth. -/
def newLine (depth : Nat) : String :=
  .ofList ('\n' :: List.replicate (2 * depth) ' ')

/-- Parts between brackets, each on a line of its own one step deeper. -/
def bracketed (depth : Nat) (opener closer : String) (parts : List String) : String :=
  if parts.isEmpty then opener ++ closer
  else
    opener ++ newLine (depth + 1) ++ ("," ++ newLine (depth + 1)).intercalate parts ++
      newLine depth ++ closer

/-- The key of a mapping as a text. -/
def keyText : Value → String
  | .string s => s
  | .null => "null"
  | .bool b => if b then "true" else "false"
  | .int n => toString n
  | .float x => x.toText
  | .moment t _ => t
  | _ => ""

mutual

/-- A value as a document whose lines are indented by two blanks a step. -/
def render (depth : Nat) : Value → String
  | .null => "null"
  | .bool b => if b then "true" else "false"
  | .int n => toString n
  | .float x => x.toText
  | .string s => quote s
  | .bytes octets => quote (.ofList (Text.quotedBytes octets))
  | .moment t _ => quote t
  | .list items => bracketed depth "[" "]" (renderItems (depth + 1) items)
  | .set items => bracketed depth "[" "]" (renderItems (depth + 1) items)
  | .mapping entries => bracketed depth "\x7b" "\x7d" (renderEntries (depth + 1) entries)
  | .pair k v => bracketed depth "[" "]" [render (depth + 1) k, render (depth + 1) v]

/-- The items of a list, one text each. -/
def renderItems (depth : Nat) : List Value → List String
  | [] => []
  | v :: vs => render depth v :: renderItems depth vs

/-- The entries of a mapping, one text each. -/
def renderEntries (depth : Nat) : List (Value × Value) → List String
  | [] => []
  | (k, v) :: rest => (quote (keyText k) ++ ": " ++ render depth v) :: renderEntries depth rest

end

end SourceSurvey.Json
