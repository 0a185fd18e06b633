import SourceSurvey.Extract.Python.Class
import SourceSurvey.Extract.Python.Import

/-!
# Python files

Declarations read by indentation: imports, classes with methods and attributes, functions,
upper-case constants, raised and caught errors.
-/

namespace SourceSurvey.Extract.Python

open Pattern

/-! ## Constants, errors and risks -/

/-- The start of a constant's assignment. -/
def constantStart : Pattern (List Char × Option (List Char)) := do
  let name ← constantName
  let type ← annotatedAssignment
  return (name, type)

/-- The constant assigned at a place that is not indented. -/
def constantAt? (p : Place) : Option Slot :=
  match constantStart.matchStart? p.code with
  | none => none
  | some (name, type) =>
    let value := (valueOf? p.raw).getD []
    some
      { name := .ofList name
        type := match type with
          | some t => .ofList (Text.trim t)
          | none => literalType literalNames value
        default := some (.ofList value) }

/-- A raised error. -/
def raised : Pattern (List Char) := do
  wordBoundary
  lit "raise"
  blanks1
  run1 fun c => Text.isWord c || c == '.'

/-- The errors that a handler catches. -/
def caught : Pattern (List Char) := do
  lit "except"
  let _ ← opt (lit "*")
  blanks1
  let errors ← runLazy notLineFeed 1
  let _ ← opt do
    aliasMark
    run1 Text.isWord
  blanks
  lit ":"
  return errors

/-- Errors that say nothing about the cause. -/
def plainErrors : List String := ["Exception", "BaseException"]

/-- The name of an error type in a text; names in lower case are re-raised variables. -/
def errorName? (text : List Char) : Option String :=
  let name := Text.afterLast '.' (Text.trim text)
  if Text.isIdentifier name && name.head?.any Text.isUpper &&
      !plainErrors.contains (.ofList name) then
    some (.ofList name)
  else none

/-- The errors that one line raises and catches. -/
def errorsOf (code : Line) : List String :=
  let text := Text.trim code
  let raisedHere := (raised.searchAll text).map (·.value)
  let caughtHere := match caught.matchStart? text with
    | some errors =>
      Text.splitAt ',' (Text.trimWhile (fun c => c == '(' || c == ')' || c == ' ') errors)
    | none => []
  (raisedHere ++ caughtHere).filterMap errorName?

/-- A line that guards or handles. -/
def riskStart : Pattern Unit :=
  (do lit "try"; blanks; lit ":") <|> (do lit "except"; wordBoundary)


/-! ## Files -/

/-- What a file declares. -/
def extract (lines : List Line) : Extraction :=
  let ps := places (sourceLines .hash lines)
  { imports := readStatements importsAt 0 ps
    types := ps.filterMap classAt?
    routines := ps.filterMap topLevelFunction?
    globals := distinctBy (·.name) (ps.filterMap constantAt?)
    errorNames := distinct (ps.flatMap fun p => errorsOf p.code)
    riskPoints := linesMatching riskStart ps }

/-- A stripped line of nothing but literals, as a docstring leaves it. -/
def isDocstringLine (text : Line) : Bool :=
  let isQuote := fun c => c == '"' || c == '\''
  text.all (fun c => isQuote c || "rRbBuUfF".toList.contains c) && text.getLast?.any isQuote

/-- Lines that are neither blank nor only comments or docstrings. -/
def codeLineCount (lines : List Line) : Nat :=
  (CommentRules.hash.strip lines).countP fun code =>
    !Text.isBlank code && !isDocstringLine (Text.trim code)

/-- The modules and names that a file connects to. -/
def connections (imports : List ImportStatement) : List String :=
  distinct ((imports.flatMap fun i => i.module :: i.names).filter (· != "*"))

end SourceSurvey.Extract.Python
