import SourceSurvey.Yaml.Block
import SourceSurvey.Yaml.Plain
import SourceSurvey.Yaml.Property
import SourceSurvey.Yaml.Quoted

/-!
# The tokens of a text

Outside brackets the structure of a text is its indentation: a deeper column opens a collection and
a lesser one closes it. A key without a sign of its own is known as one only at the colon after it,
so every scalar that may be a key is remembered with the number of its token.
-/

namespace SourceSurvey.Yaml

/-- A token that turns out to begin a key if a colon follows. -/
structure PossibleKey where
  /-- How many tokens come before it. -/
  number : Nat
  /-- Nothing else than a key can stand there. -/
  isRequired : Bool
  index : Nat
  line : Nat
  column : Nat
deriving Repr, DecidableEq

/-- How much of a text has been read, and the tokens found so far. -/
structure Scanner where
  place : Place
  /-- How many brackets are open. -/
  flow : Nat := 0
  /-- The column of the innermost collection outside brackets. -/
  indent : Int := -1
  /-- The columns of the collections around it. -/
  outer : List Int := []
  keyAllowed : Bool := true
  /-- The possible keys, at most one for every number of open brackets. -/
  keys : List (Nat × PossibleKey) := []
  /-- The tokens, the last one first. -/
  tokens : List Token := []

namespace Scanner

/-- How many characters a key without a sign of its own may have. -/
def maxKeyLength : Nat := 1024

/-- The column as an indentation. -/
def column (s : Scanner) : Int :=
  s.place.column

/-- A token added at the end. -/
def emit (t : Token) (s : Scanner) : Scanner :=
  { s with tokens := t :: s.tokens }

/-- A token put before a token of which the number is known. -/
def emitAt (number : Nat) (t : Token) (s : Scanner) : Scanner :=
  let later := s.tokens.length - number
  { s with tokens := s.tokens.take later ++ t :: s.tokens.drop later }

/-- The possible key is too far back for its colon. -/
def isStale (s : Scanner) (k : PossibleKey) : Bool :=
  k.line != s.place.line || maxKeyLength < s.place.index - k.index

/-- The scanner without possible keys that are too far back. -/
def dropStale (s : Scanner) : Except DocumentProblem Scanner :=
  if s.keys.any fun (_, k) => s.isStale k && k.isRequired then .error .malformed
  else .ok { s with keys := s.keys.filter fun (_, k) => !s.isStale k }

/-- The scanner without the possible key of the innermost brackets. -/
def dropKey (s : Scanner) : Except DocumentProblem Scanner :=
  match s.keys.lookup s.flow with
  | none => .ok s
  | some k =>
    if k.isRequired then .error .malformed
    else .ok { s with keys := s.keys.filter fun (level, _) => level != s.flow }

/-- The scanner with the next token as a possible key, if one is allowed here. -/
def saveKey (s : Scanner) : Except DocumentProblem Scanner := do
  if !s.keyAllowed then return s
  else
    let isRequired := s.flow == 0 && s.indent == s.column
    let key : PossibleKey :=
      ⟨s.tokens.length, isRequired, s.place.index, s.place.line, s.place.column⟩
    let s ← s.dropKey
    return { s with keys := (s.flow, key) :: s.keys }

/-- The collections that a column closes. -/
def closeBlocks (column : Int) (s : Scanner) : List Int → Scanner
  | [] => s
  | next :: others =>
    if column < s.indent then
      closeBlocks column { s.emit .blockEnd with indent := next, outer := others } others
    else s

/-- The scanner with the collections closed that a column closes. Brackets are not closed by a
column. -/
def unwind (column : Int) (s : Scanner) : Scanner :=
  if s.flow == 0 then s.closeBlocks column s.outer else s

/-- The collection that a column opens, put before a token. -/
def openBlock (column : Int) (number : Nat) (t : Token) (s : Scanner) : Scanner :=
  if s.indent < column then
    { s.emitAt number t with indent := column, outer := s.indent :: s.outer }
  else s

/-- A token read together with its characters. -/
def take (count : Nat) (t : Token) (s : Scanner) : Scanner :=
  { s.emit t with place := s.place.forward count }

/-- Blanks, notes and line ends skipped. After a line end outside brackets a key is allowed. The
bound is on the number of lines. -/
def skipSpace : Nat → Scanner → Scanner
  | 0, s => s
  | n + 1, s =>
    let p := s.place.skipBlanks.skipNote
    match p.lineBreak? with
    | none => { s with place := p }
    | some (_, after) =>
      skipSpace n { s with place := after, keyAllowed := s.flow == 0 || s.keyAllowed }

/-- The end of the text. -/
def finish (s : Scanner) : Except DocumentProblem Scanner := do
  let s ← (s.unwind (-1)).dropKey
  return { s with keyAllowed := false, keys := [] }.emit .streamEnd

/-- A mark of the start or the end of a document. -/
def documentMark (t : Token) (s : Scanner) : Except DocumentProblem Scanner := do
  let s ← (s.unwind (-1)).dropKey
  return { s with keyAllowed := false }.take 3 t

/-- A directive. -/
def directive (s : Scanner) : Except DocumentProblem Scanner := do
  let s ← (s.unwind (-1)).dropKey
  let (t, after) ← Property.directive s.place
  return { s.emit t with place := after, keyAllowed := false }

/-- An opening bracket. -/
def openBracket (t : Token) (s : Scanner) : Except DocumentProblem Scanner := do
  let s ← s.saveKey
  return { s with flow := s.flow + 1, keyAllowed := true }.take 1 t

/-- A closing bracket, which has to close one. -/
def closeBracket (t : Token) (s : Scanner) : Except DocumentProblem Scanner := do
  let s ← s.dropKey
  match s.flow with
  | 0 => .error .malformed
  | n + 1 => return { s with flow := n, keyAllowed := false }.take 1 t

/-- A comma between brackets. -/
def comma (s : Scanner) : Except DocumentProblem Scanner := do
  let s ← s.dropKey
  return { s with keyAllowed := true }.take 1 .flowEntry

/-- A sign before an item or a key, which opens a collection outside brackets. -/
def indicator (opener t : Token) (keyAfter : Bool) (s : Scanner) :
    Except DocumentProblem Scanner := do
  if s.flow == 0 && !s.keyAllowed then .error .malformed
  else
    let opened := if s.flow == 0 then s.openBlock s.column s.tokens.length opener else s
    let s ← opened.dropKey
    return { s with keyAllowed := keyAfter }.take 1 t

/-- A colon before a value. The possible key before it is one. -/
def valueSign (s : Scanner) : Except DocumentProblem Scanner :=
  match s.keys.lookup s.flow with
  | some k =>
    let s := { s with keys := s.keys.filter fun (level, _) => level != s.flow }
    let s := s.emitAt k.number .key
    let s := if s.flow == 0 then s.openBlock k.column k.number .mappingStart else s
    .ok ({ s with keyAllowed := false }.take 1 .value)
  | none => s.indicator .mappingStart .value (s.flow == 0)

/-- An anchor or an alias. -/
def named (t : String → Token) (s : Scanner) : Except DocumentProblem Scanner := do
  let s ← s.saveKey
  let (name, after) ← Property.name s.place
  return { s.emit (t name) with place := after, keyAllowed := false }

/-- A tag. -/
def tag (s : Scanner) : Except DocumentProblem Scanner := do
  let s ← s.saveKey
  let (t, after) ← Property.tag s.place
  return { s.emit t with place := after, keyAllowed := false }

/-- A block scalar. -/
def block (isFolded : Bool) (s : Scanner) : Except DocumentProblem Scanner := do
  let s ← s.dropKey
  let (text, after) ← Block.scan isFolded s.indent s.place
  return { s.emit (.scalar text false) with place := after, keyAllowed := true }

/-- A scalar in quotes. -/
def quoted (s : Scanner) : Except DocumentProblem Scanner := do
  let s ← s.saveKey
  let (text, after) ← Quoted.scan s.place
  return { s.emit (.scalar text false) with place := after, keyAllowed := false }

/-- A scalar without quotes. -/
def plain (s : Scanner) : Except DocumentProblem Scanner := do
  let s ← s.saveKey
  let (text, after, isBroken) := Plain.scan (0 < s.flow) (s.indent + 1) s.place
  return { s.emit (.scalar text true) with place := after, keyAllowed := isBroken }

/-- The characters that begin no plain scalar, unless some other character follows. -/
def startsPlain (inFlow : Bool) (c : Char) (next : Option Char) : Bool :=
  !separates (some c) && !"-?:,[]\x7b\x7d#&*!|>'\"%@\x60".toList.contains c ||
    (!separates next && (c == '-' || (!inFlow && (c == '?' || c == ':'))))

/-- The token that begins with a character. -/
def token (c : Char) (s : Scanner) : Except DocumentProblem Scanner :=
  let p := s.place
  let next := p.ahead? 1
  let inFlow : Bool := 0 < s.flow
  let atStart := p.column == 0
  if c == '%' && atStart then s.directive
  else if atStart && p.hasMark '-' then s.documentMark .documentStart
  else if atStart && p.hasMark '.' then s.documentMark .documentEnd
  else if c == '[' then s.openBracket .flowSequenceStart
  else if c == '\x7b' then s.openBracket .flowMappingStart
  else if c == ']' then s.closeBracket .flowSequenceEnd
  else if c == '\x7d' then s.closeBracket .flowMappingEnd
  else if c == ',' then s.comma
  else if c == '-' && separates next then s.indicator .sequenceStart .blockEntry true
  else if c == '?' && (inFlow || separates next) then s.indicator .mappingStart .key (!inFlow)
  else if c == ':' && (inFlow || separates next) then s.valueSign
  else if c == '*' then s.named .alias
  else if c == '&' then s.named .anchor
  else if c == '!' then s.tag
  else if c == '|' && !inFlow then s.block false
  else if c == '>' && !inFlow then s.block true
  else if c == '\'' || c == '"' then s.quoted
  else if startsPlain inFlow c next then s.plain
  else .error .malformed

/-- The next token of the text. -/
def next (s : Scanner) : Except DocumentProblem Scanner := do
  let s := s.skipSpace (s.place.rest.length + 1)
  let s ← s.dropStale
  let s := s.unwind s.column
  match s.place.next? with
  | none => s.finish
  | some c => s.token c

/-- All tokens of the text; the last one tells how it ends. The bound is on the number of tokens. -/
def run : Nat → Scanner → List Token
  | 0, s => (Token.trouble .malformed :: s.tokens).reverse
  | n + 1, s =>
    match s.next with
    | .error e => (Token.trouble e :: s.tokens).reverse
    | .ok t =>
      match t.tokens with
      | .streamEnd :: _ => t.tokens.reverse
      | _ => run n t

end Scanner

/-- The tokens of a text. A mark of the byte order at its start is skipped. -/
def tokens (text : List Char) : List Token :=
  if !text.all isPrintable then [.trouble .malformed]
  else
    let start : Place := ⟨text, 0, 0, 0⟩
    let start := if start.next? == some '\uFEFF' then start.step else start
    Scanner.run (text.length + 2) { place := start }

end SourceSurvey.Yaml
