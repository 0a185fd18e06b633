import SourceSurvey.Comment.Strip
import SourceSurvey.Pattern.Basic

/-!
# Hardcoded values

Literals in code and markup that probably belong in configuration. Each kind is found at most once
per line of code; a credential excludes every other kind on its line, and an address on the web
excludes the network addresses and paths inside it.
-/

namespace SourceSurvey

/-- What a hardcoded value is. -/
inductive HardcodedKind where
  | credential | url | ip | path | number | string
deriving Repr, DecidableEq

/-- The word for a kind. -/
def HardcodedKind.name : HardcodedKind → String
  | .credential => "credential"
  | .url => "url"
  | .ip => "ip"
  | .path => "path"
  | .number => "number"
  | .string => "string"

/-- A literal that probably belongs in configuration. -/
structure HardcodedLiteral where
  value : String
  kind : HardcodedKind
  line : Nat
  context : String
deriving Repr, DecidableEq

namespace Hardcoded

open Pattern

/-! ## What is looked for -/

/-- A quote of any kind. -/
def isAnyQuote (c : Char) : Bool :=
  c == '"' || c == '\'' || c == '\x60'

/-- A text without quotes, between two equal ones, of at least so many characters. -/
def quoted (least : Nat) : Pattern (List Char) := do
  let quote ← char isAnyQuote
  let t ← run (fun c => !isAnyQuote c) least
  let _ ← char (· == quote)
  return t

/-- Words that name a credential. -/
def secretWords : List String :=
  ["password", "passwd", "secret", "api_key", "apikey", "key", "token", "credential", "auth"]

/-- A quoted text assigned to a name that speaks of a credential. -/
def credential : Pattern (List Char) := textOf do
  wordBoundary
  let _ ← run Text.isWord 0
  let _ ← oneOfAnyCase secretWords
  let _ ← run Text.isWord 0
  let _ ← opt (char fun c => c == '\'' || c == '"')
  let _ ← opt do
    blanks
    lit ":"
    blanks
    runLazy (fun c => Text.isWord c || c == '[' || c == ']' || c == '|' || c == '.' || c == ' ') 1
  blanks
  let _ ← char fun c => c == ':' || c == '='
  blanks
  quoted 1

/-- An address on the web. -/
def url : Pattern (List Char) := textOf do
  lit "http"
  let _ ← opt (lit "s")
  lit "://"
  run1 fun c => !(Text.isSpace c || isAnyQuote c || c == '<' || c == '>' || c == ')')

/-- A network address of four numbers. -/
def ip : Pattern (List Char) := textOf do
  let number := runUpTo Text.isDigit 3
  wordBoundary
  let _ ← number
  lit "."
  let _ ← number
  lit "."
  let _ ← number
  lit "."
  let _ ← number
  wordBoundary

/-- A quoted absolute path. -/
def path : Pattern (List Char) := do
  let _ ← char isAnyQuote
  let p ← textOf do
    lit "/"
    run1 fun c => Text.isWord c || c == '-' || c == '.' || c == '/'
  let _ ← char isAnyQuote
  return p

/-- The number assigned to a network socket. -/
def socketNumber : Pattern (List Char) := do
  litAnyCase "port"
  let _ ← opt (char fun c => c == '\'' || c == '"')
  blanks
  let _ ← char fun c => c == ':' || c == '='
  blanks
  run1 Text.isDigit

/-- A whole line that assigns a long quoted text: the name and the text. -/
def stringAssignment : Pattern (List Char × List Char) := do
  let _ ← opt do
    let _ ← opt (do lit "export"; blanks1)
    let _ ← oneOf ["const", "let", "var"]
    blanks1
  let _ ← opt (lit "$")
  let bound ← run1 fun c => Text.isWord c || c == '.'
  blanks
  lit "="
  blanks
  let t ← quoted 8
  blanks
  let _ ← opt (lit ";")
  blanks
  atEnd
  return (bound, t)

/-- A name written as a constant. -/
def isConstantName : List Char → Bool
  | [] => false
  | c :: cs => 'A' ≤ c && c ≤ 'Z' &&
    cs.all fun d => ('A' ≤ d && d ≤ 'Z') || ('0' ≤ d && d ≤ '9') || d == '_'

/-- A trimmed line that imports. -/
def isImportLine (text : List Char) : Bool :=
  let word := fun (w : String) =>
    w.toList.isPrefixOf text && (text.drop w.length).head?.any Text.isSpace
  word "import" || word "from" || word "use" ||
    "require".toList.isPrefixOf text || "include".toList.isPrefixOf text

/-- A trimmed line that is a comment. -/
def isCommentLine (text : List Char) : Bool :=
  ("#".toList.isPrefixOf text && !"#[".toList.isPrefixOf text) ||
    ["//", "/*", "*", "<!--"].any (·.toList.isPrefixOf text)

/-! ## Lines of code -/

/-- What stands before the first colon or equals sign of a line, at most 30 characters of it. -/
def excerpt (line : List Char) : List Char :=
  (Text.trim ((Text.trim line).takeWhile fun c => c != ':' && c != '=')).take 30

/-- The values of the kinds that may stand together on a line without a credential. -/
def plainFindings (text : List Char) : List (HardcodedKind × List Char) :=
  let found := fun (p : Pattern (List Char)) (kind : HardcodedKind) =>
    ((p.search? text).map fun f => (kind, f.value)).toList
  let urls := found url .url
  let addresses := if urls.isEmpty then found ip .ip ++ found path .path else []
  urls ++ addresses ++ found socketNumber .number

/-- The long text that a line assigns to a name that is not written as a constant. -/
def assignedString? (text : List Char) : Option (List Char) :=
  (stringAssignment.matchStart? (Text.trim text)).bind fun (bound, t) =>
    if isConstantName (Text.afterLast '.' bound) then none else some t

/-- The findings on the text of a line without its trailing comment. -/
def findingsOf (text : List Char) : List (HardcodedKind × List Char) :=
  match credential.search? text with
  | some f => [(.credential, f.value)]
  | none =>
    match plainFindings text with
    | [] => ((assignedString? text).map fun t => (.string, t)).toList
    | found => found

/-- A line is looked at: it has code, and it is no comment, annotation or import. -/
def isRelevant (line code : Line) : Bool :=
  let text := Text.trim line
  !text.isEmpty && !Text.isBlank code &&
    !(isCommentLine text || Text.contains text "---".toList || isImportLine text)

/-- The hardcoded values of one line. -/
def ofLine (style : CommentRules) (number : Nat) (line code : Line) : List HardcodedLiteral :=
  if isRelevant line code then
    let text := style.cutLineComment line
    (findingsOf text).map fun (kind, value) =>
      { value := .ofList value
        kind := kind
        line := number
        context := if kind = .number then "port" else .ofList (excerpt text) }
  else []

/-- The hardcoded values of a file of code. -/
def ofCode (style : CommentRules) (lines : List Line) : List HardcodedLiteral :=
  ((lines.zip (style.strip lines)).zipIdx 1).flatMap fun ((line, code), n) =>
    ofLine style n line code

/-! ## Lines of markup -/

/-- A web address in an attribute that links: the attribute and the address. -/
def linkedUrl : Pattern (List Char × List Char) := do
  let isPlainQuote := fun c => c == '"' || c == '\''
  wordBoundary
  let bound ← textOf (oneOfAnyCase ["href", "src", "action"])
  blanks
  lit "="
  blanks
  let _ ← char isPlainQuote
  let address ← textOf do
    litAnyCase "http"
    let _ ← opt (litAnyCase "s")
    lit "://"
    run1 fun c => !isPlainQuote c
  let _ ← char isPlainQuote
  return (bound, address)

/-- The hardcoded values of one stripped line of markup: every linked address, or else a network
address. -/
def ofMarkupLine (number : Nat) (code : Line) : List HardcodedLiteral :=
  if Text.isBlank code then []
  else match linkedUrl.searchAll code with
    | [] => ((ip.search? code).map fun f => ⟨.ofList f.value, .ip, number, "inline"⟩).toList
    | urls => urls.map fun f =>
      ⟨.ofList f.value.2, .url, number, .ofList (Text.lower f.value.1)⟩

/-- The hardcoded values of a page or a stylesheet. -/
def ofMarkup (lines : List Line) : List HardcodedLiteral :=
  ((CommentRules.markup.strip lines).zipIdx 1).flatMap fun (code, n) => ofMarkupLine n code

end Hardcoded

end SourceSurvey
