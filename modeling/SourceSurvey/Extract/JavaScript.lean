import SourceSurvey.Extract.JavaScript.Class
import SourceSurvey.Extract.JavaScript.Import

/-!
# JavaScript and TypeScript files

Declarations read by braces: imports and requires, classes with methods and fields, functions in
their three spellings, upper-case constants, thrown and typed caught errors.
-/

namespace SourceSurvey.Extract.JavaScript

open Pattern

/-! ## Constants, errors and risks -/

/-- The start of a constant's declaration. -/
def constantStart : Pattern (List Char × Option (List Char)) := do
  blanks
  let _ ← optWord "export"
  lit "const"
  blanks1
  let bound ← constantName
  let type ← annotatedAssignment
  return (bound, type)

/-- The constant declared at a place outside all braces. -/
def constantAt? (p : Place) : Option Slot :=
  if Text.contains p.code "require".toList then none
  else match constantStart.matchStart? p.code with
    | none => none
    | some (bound, type) =>
      let value := (valueOf? p.raw).getD []
      some
        { name := .ofList bound
          type := match type with
            | some t => .ofList (Text.trim t)
            | none => literalType literalNames value
          default := some (.ofList value) }

/-- A thrown error. -/
def thrown : Pattern (List Char) := do
  wordBoundary
  lit "throw"
  blanks1
  lit "new"
  blanks1
  dottedName

/-- The type of a caught error. -/
def caughtType : Pattern (List Char) := do
  wordBoundary
  lit "catch"
  blanks
  lit "("
  blanks
  let _ ← name
  blanks
  lit ":"
  blanks
  let type ← dottedName
  blanks
  lit ")"
  return type

/-- The errors that one line throws and catches, without those that say nothing. -/
def errorsOf (code : Line) : List String :=
  let lastPart := fun (f : Found (List Char)) => String.ofList (Text.afterLast '.' f.value)
  let thrownHere := ((thrown.searchAll code).map lastPart).filter (· != "Error")
  let caughtHere := ((caughtType.searchAll code).map lastPart).filter fun e =>
    !(["any", "unknown", "Error"].contains e)
  thrownHere ++ caughtHere

/-- The errors named in a file. -/
def errorNames (ps : List Place) : List String :=
  distinct (ps.flatMap fun p => errorsOf p.code)


/-! ## Files -/

/-- What a file declares. -/
def extract (lines : List Line) : Extraction :=
  let ps := places (sourceLines .slash lines)
  { imports := readStatements importsAt 0 ps
    types := ps.filterMap classAt?
    routines := topLevelFunctions ps
    globals := distinctBy (·.name) ((placesWithDepths ps).filterMap fun (depth, p) =>
      if depth = 0 then constantAt? p else none)
    errorNames := errorNames ps
    riskPoints := linesMatching guardStart ps }

end SourceSurvey.Extract.JavaScript
