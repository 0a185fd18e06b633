import SourceSurvey.Extract.Php.Import
import SourceSurvey.Extract.Php.Type

/-!
# PHP files

Declarations read by braces: namespace uses and includes, classes, interfaces and traits with
methods and properties, functions, constants in both spellings, thrown and caught errors.
-/

namespace SourceSurvey.Extract.Php

open Pattern

/-! ## Constants and errors -/

/-- `define('NAME', value)`. -/
def defineCall : Pattern (List Char × List Char) := do
  lit "define"
  blanks
  lit "("
  blanks
  let _ ← char isPlainQuote
  let bound ← run1 Text.isWord
  let _ ← char isPlainQuote
  blanks
  lit ","
  blanks
  let value ← runLazy notLineFeed 1
  blanks
  lit ")"
  blanks
  let _ ← opt (lit ";")
  atEnd
  return (bound, value)

/-- `const NAME =`. -/
def constantStart : Pattern (List Char) := do
  blanks
  lit "const"
  blanks1
  let bound ← run1 Text.isWord
  blanks
  lit "="
  notBefore (· == '=')
  return bound

/-- The constant declared at a place of the given brace depth. A call of `define` declares one at
any depth. -/
def constantAt? (here : Nat × Place) : Option Slot :=
  let (depth, p) := here
  let declared :=
    if "define".toList.isPrefixOf (Text.trim p.code) then
      defineCall.matchStart? (Text.trim (CommentRules.slashAndHash.cutLineComment p.raw))
    else if depth = 0 then
      (constantStart.matchStart? p.code).map fun bound => (bound, (valueOf? p.raw).getD [])
    else none
  declared.map fun (bound, value) =>
    ⟨.ofList bound, literalType literalNames value, some (.ofList value)⟩

/-- A thrown error. -/
def thrown : Pattern (List Char) := do
  wordBoundary
  lit "throw"
  blanks1
  lit "new"
  blanks1
  let _ ← opt (lit "\\")
  run1 isPathChar

/-- The types of a caught error. -/
def caughtTypes : Pattern (List Char) := do
  wordBoundary
  lit "catch"
  blanks
  lit "("
  blanks
  let types ← runLazy (fun c => isTypeChar c || Text.isSpace c) 1
  blanks
  let _ ← opt variableName
  blanks
  lit ")"
  return types

/-- The last segment of the path of an error type, unless it says nothing. -/
def errorName? (text : List Char) : Option String :=
  let bound := Text.afterLast '\\' (Text.trim text)
  if bound.isEmpty || bound == "Exception".toList then none else some (.ofList bound)

/-- The errors that one line throws and catches. -/
def errorsOf (code : Line) : List String :=
  let thrownHere := (thrown.searchAll code).map (·.value)
  let caughtHere := (caughtTypes.searchAll code).flatMap fun f => Text.splitAt '|' f.value
  (thrownHere ++ caughtHere).filterMap errorName?


/-! ## Files -/

/-- What a file declares. -/
def extract (lines : List Line) : Extraction :=
  let ps := places (sourceLines .slashAndHash lines)
  let deep := placesWithDepths ps
  { imports := readStatements importsAt 0 deep
    types := ps.filterMap typeAt?
    routines := deep.filterMap fun (depth, p) =>
      if depth = 0 then (functionStart.matchStart? p.code).map fun bound => functionAt p bound []
      else none
    globals := distinctBy (·.name) (deep.filterMap constantAt?)
    errorNames := distinct (ps.flatMap fun p => errorsOf p.code)
    riskPoints := linesMatching guardStart ps }

/-- Lines that are neither blank nor only comments or the tags around the code. -/
def codeLineCount (lines : List Line) : Nat :=
  (CommentRules.slashAndHash.strip lines).countP fun code =>
    let text := Text.trim code
    !text.isEmpty && text != "<?php".toList && text != "?>".toList

end SourceSurvey.Extract.Php
