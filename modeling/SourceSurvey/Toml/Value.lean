import SourceSurvey.Toml.Literal

/-!
# TOML values

Values with their kinds, arrays of values of one kind, inline tables and the assignments in them.
-/

namespace SourceSurvey.Toml

/-- The kind of a value. All values of an array are of one kind. -/
inductive Kind where
  | bool | text | array | table | time | date | int | float
deriving Repr, DecidableEq

/-! ## Parts of arrays -/

/-- A quote closes the text that it opens. -/
def isClosedText : List Char → Bool
  | [] => true
  | c :: rest =>
    if ((c :: rest).getLast?) != some c then false else !endsEscaped rest.dropLast

/-- A part of an array of texts was cut at a comma inside a text. -/
def isCut (part : List Char) : Bool :=
  let p := Text.trim part
  let r := p.reverse
  let opensTriple := match p with
    | a :: b :: c :: _ => a == b && b == c && r[1]? != some a && r[2]? != some a
    | _ => false
  !isClosedText p || opensTriple

/-- The parts of an array of texts, joined where they were cut inside a text. The last part is taken
as it is unless it was just joined. -/
def joinCut (isJoined : Bool) (part : List Char) :
    List (List Char) → Except DocumentProblem (List (List Char))
  | [] => if isJoined && isCut part then .error (.fault .missingMember) else .ok [part]
  | next :: others =>
    if isCut part then joinCut true (part ++ ',' :: next) others
    else do return part :: (← joinCut false next others)

/-- The parts of a text between commas outside brackets. -/
def splitOutside (depth : Int) : List Char → List (List Char)
  | [] => [[]]
  | c :: rest =>
    let after := if c == '[' then depth + 1 else if c == ']' then depth - 1 else depth
    if c == ',' && depth == 0 then [] :: splitOutside after rest
    else match splitOutside after rest with
      | [] => [[c]]
      | part :: parts => (c :: part) :: parts

/-- Where a list of inline tables is read: the start of a table, a place in it, how many braces are
open and whether a text is. -/
structure TableCursor where
  start : Nat
  place : Nat
  braces : Nat
  inText : Bool := false

/-- A place is in a text after a quote at it: the quote opens one or is escaped. -/
def textAfter (chars : Array Char) (inText : Bool) (place : Nat) : Bool :=
  !inText || endsEscaped (chars.toList.take place)

/-- The next opening brace at or after a place, or the end. The bound is on the number of
characters. -/
def nextBrace (chars : Array Char) (last : Nat) (place : Nat) : Nat → Nat
  | 0 => place
  | n + 1 =>
    if place < last && chars[place]? != some '\x7b' then nextBrace chars last (place + 1) n
    else place

/-- The inline tables of an array, from a cursor on. The bound is on the number of characters. -/
def tablesFrom (chars : Array Char) (c : TableCursor) : Nat → List (List Char)
  | 0 => []
  | n + 1 =>
    let last := chars.size - 1
    if last ≤ c.place then []
    else
      let x := chars[c.place]?
      let inText := if x == some '"' || x == some '\'' then textAfter chars c.inText c.place
        else c.inText
      let braces := if !inText && x == some '\x7b' then c.braces + 1 else c.braces
      if inText || x != some '\x7d' then
        tablesFrom chars { c with place := c.place + 1, braces, inText } n
      else if 1 < braces then
        tablesFrom chars { c with place := c.place + 1, braces := braces - 1, inText } n
      else
        let stop := c.place + 1
        let start := nextBrace chars last (stop + 1) chars.size
        ((chars.toList.take stop).drop c.start) ::
          tablesFrom chars { start, place := start + 1, braces, inText } n

/-- The parts of an array. -/
def arrayParts (text : List Char) : Except DocumentProblem (List (List Char)) :=
  let a := Text.trim text
  let inside := inner a
  let isNested := inside.contains '[' && (Text.trim (Text.beforeFirst '[' inside)).isEmpty
  if isNested then .ok (splitOutside 0 inside)
  else
    let first := (Text.trim inside).head?
    if first == some '\x7b' then
      let chars := a.toArray
      let braces := if chars[1]? == some '\x7b' then 1 else 0
      .ok (tablesFrom chars { start := 1, place := 2, braces } (chars.size + 1))
    else
      match Text.splitAt ',' inside with
      | part :: others =>
        if first == some '"' || first == some '\'' then joinCut false part others
        else .ok (part :: others)
      | [] => .ok []

/-! ## Assignments -/

/-- The value of an assignment: its text from after the equal sign, and whether it is a number in
which all signs stand where they may. -/
structure RightSide where
  key : List Char
  text : List Char
  isStrict : Bool

/-- A value that begins like this is no number and no date. -/
def isNoNumber (text : List Char) : Bool :=
  match text with
  | [] => true
  | c :: _ =>
    let word := String.ofList (Text.trim text)
    c == ' ' || c == '\t' || c == '\'' || c == '"' || c == '[' || c == '\x7b' ||
      word == "true" || word == "false"

/-- The parts of a line before and after one of its equal signs. The sign may stand further right
until what follows it is a value. The bound is on the number of signs. -/
def findSign (line : List Char) (count : Nat) (last : List Char) (pieces : List (List Char))
    (isStrict : Bool) : Nat → Except DocumentProblem RightSide
  | 0 => .error .malformed
  | n + 1 =>
    if isNoNumber last || (Number.real? last).isSome || isDate last || (time? last).isSome then
      .ok ⟨Text.join ['='] pieces.dropLast, last, isStrict⟩
    else
      let next := splitOnText ['='] (count + 1) line
      let text := (next.getLast?).getD []
      if text == last then .error .malformed
      else findSign line (count + 1) text next (isStrict && isStrictNumber text) n

/-- The key and the value of a line, each without the blanks around it. -/
def sides (line : List Char) : Except DocumentProblem RightSide := do
  let count := 1 + countQuoted ['='] false (quotePieces line)
  let pieces := splitOnText ['='] count line
  let last := (pieces.getLast?).getD []
  let plain := if last.head?.any isDigit then last.filter (· != '_') else last
  let found ← findSign line count plain pieces (isStrictNumber last) (line.length + 1)
  return ⟨Text.trim found.key, Text.trim found.text, found.isStrict⟩

/-- The levels of a key with dots. -/
def levels (key : List Char) (isQuoted : Bool) : List (List Char) → List (List Char)
  | [] => []
  | piece :: others =>
    (if isQuoted then [piece] else (Text.splitAt '.' piece).map Text.trim) ++
      levels key (!isQuoted) others

/-- The levels of a key: the tables on the way, and the name in the last of them. -/
def keyPath (key : List Char) : Except DocumentProblem (List (List Char) × List Char) := do
  if key.contains '.' then
    let all :=
      if key.contains '"' || key.contains '\'' then levels key false (quotePieces key)
      else Text.splitAt '.' key
    match (all.reverse.dropWhile (·.isEmpty)) with
    | [] => .error (.fault .missingMember)
    | last :: before => return (before.reverse.filter (!·.isEmpty), Text.trim last)
  else
    match key with
    | [] => .error (.fault .missingMember)
    | c :: _ =>
      if key.getLast? == some c && (c == '"' || c == '\'') then
        return ([], ← unescape (inner key))
      else return ([], key)

/-- The last item of an array of texts, from its parts between commas: the nearest part to the end
that begins with a quote, with what follows it. The parts before come nearest first. -/
def lastText (last : List Char) : List (List Char) → Except DocumentProblem (List Char)
  | [] => .ok last
  | part :: others =>
    match last with
    | [] => .error (.fault .missingMember)
    | c :: _ => if c == '"' || c == '\'' then .ok last else lastText (part ++ ',' :: last) others

/-- The text opens a triple quote that goes on on the next line. -/
def opensTriple : List Char → Except DocumentProblem Bool
  | [] => .error (.fault .missingMember)
  | a :: rest =>
    if a != '"' && a != '\'' then .ok false
    else match rest with
      | [] => .error (.fault .missingMember)
      | [b] => if b != a then .ok false else .error (.fault .missingMember)
      | b :: c :: more =>
        let isClosed := 2 < more.length && (more.drop (more.length - 3)).all (· == a)
        .ok (b == a && c == a && !isClosed)

/-- The value is a triple-quoted text that goes on on the next line, or an array whose last item is
one. -/
def isOpen (value : List Char) : Except DocumentProblem Bool := do
  let first := (Text.trim (inner value)).head?
  let isTexts := first == some '"' || first == some '\''
  if value.length < 3 then return false
  else if value.head? == some '[' && value.getLast? != some ']' && isTexts then
    match (Text.splitAt ',' (Text.trim (value.drop 1))).reverse with
    | [] => return false
    | last :: before => opensTriple (← lastText last before)
  else opensTriple value

/-- The entries of a table below some tables on the way, changed. Tables on the way are made; what
is no table cannot be passed. -/
def withTable (f : Option (List (Value × Value)) →
    Except DocumentProblem (List (Value × Value) × Bool)) :
    List (List Char) → Value → Except DocumentProblem (Value × Bool)
  | [], v =>
    match v with
    | .mapping entries => do
      let (changed, isOpen) ← f (some entries)
      return (.mapping changed, isOpen)
    | _ => do
      let (changed, isOpen) ← f none
      return (.mapping changed, isOpen)
  | level :: rest, v =>
    match v with
    | .mapping entries => do
      let key := String.ofList level
      let old := (Value.entry? key entries).getD (.mapping [])
      let (changed, isOpen) ← withTable f rest old
      return (.mapping (Value.setEntry (.string key) changed entries), isOpen)
    | _ => .error (.fault .wrongKind)

/-- A text that goes on on the next lines: the key that it belongs to, what is known of it, and
whether its next line is joined without a line end. -/
structure Pending where
  key : List Char
  text : List Char
  isJoined : Bool
deriving Repr, DecidableEq

/-- The text after an equal sign is a whole value of an inline table. -/
def isWhole (text : List Char) : Except DocumentProblem Bool :=
  match text with
  | [] => .error (.fault .missingMember)
  | c :: _ =>
    let last := text.getLast?
    let word := String.ofList text
    .ok ((last == some c && (c == '"' || c == '\'')) || c == '-' || isDigit c ||
      word == "true" || word == "false" || (c == '[' && last == some ']') ||
      (c == '\x7b' && last == some '\x7d'))

/-- The assignments of an inline table, from its parts between commas: parts are joined until what
follows the equal sign is a whole value. -/
def assignmentParts (part : List Char) :
    List (List Char) → Except DocumentProblem (List (List Char))
  | [] => do
    if !part.contains '=' then .error .malformed
    else if ← isWhole (Text.trim ((part.dropWhile (· != '=')).drop 1)) then return [part]
    else .error .malformed
  | next :: others => do
    if !part.contains '=' then .error .malformed
    else if ← isWhole (Text.trim ((part.dropWhile (· != '=')).drop 1)) then
      return part :: (← assignmentParts next others)
    else assignmentParts (part ++ ',' :: next) others

mutual

/-- The value of a text, with its kind. The bound is on the nesting. -/
def value (isStrict : Bool) (text : List Char) : Nat → Except DocumentProblem (Value × Kind)
  | 0 => .error .malformed
  | n + 1 =>
    let word := String.ofList (Text.lower text)
    if word == "true" || word == "false" then
      if String.ofList text == word then .ok (.bool (word == "true"), .bool) else .error .malformed
    else match text with
      | [] => .error .malformed
      | c :: _ =>
        if c == '"' || c == '\'' then
          (quoted c text).map fun t => (.string (.ofList t), .text)
        else if c == '[' then do
          let parts := (← arrayParts text).map Text.trim
          return (.list (← items none (parts.filter (!·.isEmpty)) n), .array)
        else if c == '\x7b' then do
          let (table, _) ← inlineTable text (.mapping []) n
          return (table, .table)
        else match time? text with
          | some (h, m, s) =>
            if Calendar.isTime h m s then .ok (.moment (.ofList text) (.ofList text), .time)
            else .error .malformed
          | none =>
            if isDate text then .ok (.moment (.ofList text) (.ofList text), .date)
            else if !isStrict then .error .malformed
            else (number text).map fun v =>
              (v, match v with
                | .float _ => .float
                | _ => .int)

/-- The values of the parts of an array, all of one kind. -/
def items (kind : Option Kind) (parts : List (List Char)) : Nat →
    Except DocumentProblem (List Value)
  | 0 => .error .malformed
  | n + 1 =>
    match parts with
    | [] => .ok []
    | part :: others => do
      let (v, k) ← value true part n
      if kind.any (· != k) then .error .malformed
      else return v :: (← items (some k) others n)

/-- A table with the assignments between braces added. -/
def inlineTable (text : List Char) (table : Value) : Nat →
    Except DocumentProblem (Value × Option Pending)
  | 0 => .error .malformed
  | n + 1 => do
    let groups := Text.splitAt ',' (inner text)
    let isEmpty := match groups with
      | [only] => (Text.trim only).isEmpty
      | _ => false
    if isEmpty then return (table, none)
    else
      match groups with
      | [] => return (table, none)
      | first :: others => assignments (← assignmentParts first others) table n

/-- A table with assignments added, up to one whose text goes on. -/
def assignments (parts : List (List Char)) (table : Value) : Nat →
    Except DocumentProblem (Value × Option Pending)
  | 0 => .error .malformed
  | n + 1 =>
    match parts with
    | [] => .ok (table, none)
    | part :: others => do
      let (changed, pending) ← assignment part table n
      if pending.isSome then return (changed, none) else assignments others changed n

/-- A table with the assignment of a line added, or with the tables on the way to it if its text
goes on. A name that is there already is refused. -/
def assignment (line : List Char) (table : Value) : Nat →
    Except DocumentProblem (Value × Option Pending)
  | 0 => .error .malformed
  | n + 1 => do
    let right ← sides line
    let (path, name) ← keyPath right.key
    -- what is no table is noticed before the value is read
    let (_, _) ← withTable (fun entries => .ok (entries.getD [], false)) path table
    let found ←
      if ← isOpen right.text then pure none else some <$> value right.isStrict right.text n
    let key := Value.string (.ofList name)
    let (changed, isOpen) ← withTable (fun entries =>
      match entries with
      | none => .error .malformed
      | some es =>
        if es.any fun (k, _) => Value.same k key then .error .malformed
        else match found with
          | none => .ok (es, true)
          | some (v, _) => .ok (Value.setEntry key v es, false)) path table
    if isOpen then
      let isJoined := endsEscaped right.text
      let text := if isJoined then right.text.dropLast else right.text ++ ['\n']
      return (changed, some ⟨name, text, isJoined⟩)
    else return (changed, none)

end

end SourceSurvey.Toml
