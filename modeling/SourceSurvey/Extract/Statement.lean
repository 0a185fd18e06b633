import SourceSurvey.Code.Literal
import SourceSurvey.Code.Nesting
import SourceSurvey.Code.Place
import SourceSurvey.Summary.Declaration

/-!
# Reading statements line by line

What the extractors share: reading statements that take several lines, the first mention of each
name, and the value that a line assigns.
-/

namespace SourceSurvey.Extract

/-- Reads a statement at every place that the statement before it did not take. The reader says how
many further places its statement took. -/
def readStatements {α β : Type} (read : α → List β × Nat) : Nat → List α → List β
  | _, [] => []
  | skip + 1, _ :: places => readStatements read skip places
  | 0, place :: places =>
    let (found, taken) := read place
    found ++ readStatements read taken places

/-- A text extended by one line after the other as long as it goes on, with the number of lines
taken. -/
def extendWhile (goesOn : List Char → Bool) (extend : List Char → Line → List Char)
    (text : List Char) : List Line → List Char × Nat
  | [] => (text, 0)
  | line :: lines =>
    if goesOn text then
      let (whole, taken) := extendWhile goesOn extend (extend text line) lines
      (whole, taken + 1)
    else (text, 0)

/-- The members of a list without those whose key occurred before. -/
def distinctBy {α β : Type} [BEq β] (key : α → β) : List α → List α
  | [] => []
  | a :: as => a :: (distinctBy key as).filter fun b => !(key b == key a)

/-- The members of a list without repetitions. -/
def distinct (names : List String) : List String :=
  distinctBy id names

/-- Any character but a line feed. -/
def notLineFeed (c : Char) : Bool :=
  c != '\n'

/-- Both quotes that a name or path in an import may stand in. -/
def isPlainQuote (c : Char) : Bool :=
  c == '"' || c == '\''

/-- A text in plain quotes that is not empty. -/
def quotedText : Pattern (List Char) := do
  let _ ← Pattern.char isPlainQuote
  let t ← Pattern.run1 fun c => !isPlainQuote c
  let _ ← Pattern.char isPlainQuote
  return t

/-- Blanks around the word that introduces an alias. -/
def aliasMark : Pattern Unit := do
  Pattern.blanks1
  Pattern.lit "as"
  Pattern.blanks1

/-- An upper-case name of ASCII letters, digits and underscores. -/
def constantName : Pattern (List Char) := Pattern.textOf do
  let _ ← Pattern.char fun c => ('A' ≤ c && c ≤ 'Z') || c == '_'
  Pattern.run (fun c => ('A' ≤ c && c ≤ 'Z') || ('0' ≤ c && c ≤ '9') || c == '_') 0

/-- A type after a colon, if there is one, and the equals sign of an assignment. -/
def annotatedAssignment : Pattern (Option (List Char)) := do
  Pattern.blanks
  let type ← Pattern.opt do
    Pattern.lit ":"
    Pattern.blanks
    Pattern.runLazy (· != '=') 1
  Pattern.blanks
  Pattern.lit "="
  Pattern.notBefore (· == '=')
  return type

/-- What stands after the first assigning equals sign of a line, without its comment; nothing if
that is empty. -/
def assignedValue? (style : CommentRules) (closers : Char → Bool) (line : Line) :
    Option (List Char) :=
  let text := Text.trim (style.cutLineComment line)
  match topLevelPosition? '=' text with
  | none => none
  | some n =>
    let value := Text.trim (Text.trimEndWhile closers (Text.trim (text.drop (n + 1))))
    if value.isEmpty then none else some value

/-- The modules of imports, each once, in order. -/
def importedModules (imports : List ImportStatement) : List String :=
  distinct (imports.map (·.module))

/-- The numbers of the lines whose trimmed code the pattern reads. -/
def linesMatching (p : Pattern Unit) (places : List Place) : List Nat :=
  (places.filter fun place => p.matches? (Text.trim place.code)).map (·.number)

end SourceSurvey.Extract
