import SourceSurvey.Extract.BraceLanguage

/-!
# Stylesheets

The selectors of rules as types, with their declarations as attributes.
-/

namespace SourceSurvey.Extract.Css

open Pattern

/-- The target of an import, with or without quotes. -/
def importTarget : Pattern (List Char) := do
  lit "@import"
  blanks1
  let _ ← opt (lit "url(")
  blanks
  let _ ← opt (char isPlainQuote)
  run1 fun c => !(isPlainQuote c || c == ')' || c == ';' || Text.isSpace c)

/-- The import at a place. -/
def importAt? (p : Place) : Option ImportStatement :=
  if "@import".toList.isPrefixOf (Text.trim p.code) then
    (importTarget.search? p.raw).map fun f =>
      .spanning (.ofList f.value) ["css"] true p.number p.number
  else none

/-- The selector of a rule that opens its braces. -/
def ruleStart : Pattern (List Char) := do
  let isSelectorChar := fun c => c != '\x7b' && c != '\x7d' && c != ';'
  let selector ← textOf do
    let _ ← char isSelectorChar
    runLazy isSelectorChar 0
  blanks
  lit "\x7b"
  return selector

/-- A property with its value. -/
def declaration : Pattern (List Char × List Char) := do
  let bound ← run1 fun c => Text.isWord c || c == '-'
  blanks
  lit ":"
  blanks
  let value ← runLazy notLineFeed 1
  blanks
  let _ ← opt (lit ";")
  blanks
  atEnd
  return (bound, value)

/-- The value written after a property's name. -/
def writtenValue (bound : List Char) : Pattern (List Char) := do
  Pattern.text bound
  blanks
  lit ":"
  blanks
  run1 fun c => c != ';' && c != '\x7d'

/-- The declarations on one line of a rule's body. A value is taken from the file, so that its
quoted text survives. -/
def declarationsAt (p : Place) : List Slot :=
  let code := Text.trim p.code
  if code.getLast? == some '\x7b' then []
  else (Text.splitAt ';' code).filterMap fun part =>
    let text := Text.trim (Text.trimEndWhile (· == '\x7d') (Text.trim part))
    (declaration.matchStart? text).map fun (bound, value) =>
      let written := match (writtenValue bound).search? p.raw with
        | some f => Text.trim f.value
        | none => value
      ⟨.ofList bound, "property", some (.ofList written)⟩

/-- The rule that begins at a place. Declarations count directly inside its braces and not on the
line of its selector. -/
def ruleAt? (p : Place) : Option TypeDeclaration :=
  (ruleStart.matchStart? (Text.trim p.code)).map fun selector =>
    { name := .ofList (Text.trim (Text.replaceRuns Text.isSpace [' '] selector))
      attributes := ((bodyWithDepths p).drop 1).flatMap fun (depth, q) =>
        if depth = 1 then declarationsAt q else []
      line := p.number }

/-- What a stylesheet declares. -/
def extract (lines : List Line) : Extraction :=
  let ps := places (sourceLines .stylesheet lines)
  { imports := ps.filterMap importAt?
    types := ps.filterMap ruleAt? }

end SourceSurvey.Extract.Css
