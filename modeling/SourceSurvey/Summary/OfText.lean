import SourceSurvey.Description
import SourceSurvey.Extract.Css
import SourceSurvey.Extract.Html
import SourceSurvey.Extract.Php
import SourceSurvey.Extract.Python
import SourceSurvey.Language
import SourceSurvey.Summary.Basic

/-!
# The summary of a text

The extractor, the counts and the findings of each language family, put together to the summary of
one file's text.
-/

namespace SourceSurvey

namespace Family

/-- What a file of the family declares. -/
def extract : Family → List Line → Except Failure Extraction
  | .python, lines => .ok (Extract.Python.extract lines)
  | .javascript, lines => .ok (Extract.JavaScript.extract lines)
  | .php, lines => .ok (Extract.Php.extract lines)
  | .html, lines => Extract.Html.extract lines
  | .css, lines => .ok (Extract.Css.extract lines)

/-- The lines of a file that hold code. -/
def codeLineCount (family : Family) (lines : List Line) : Nat :=
  match family with
  | .python => Extract.Python.codeLineCount lines
  | .php => Extract.Php.codeLineCount lines
  | _ => Extract.countNonBlank family.style lines

/-- What a file connects to by its imports. -/
def connections (family : Family) (imports : List ImportStatement) : List String :=
  match family with
  | .python => Extract.Python.connections imports
  | _ => Extract.importedModules imports

/-- The hardcoded values of a file. -/
def hardcoded (family : Family) (lines : List Line) : List HardcodedLiteral :=
  match family with
  | .html | .css => Hardcoded.ofMarkup lines
  | _ => Hardcoded.ofCode family.style lines

/-- The unused declarations of a file; pages and stylesheets have none. -/
def unused (family : Family) (lines : List Line) (found : Extraction) : List UnusedName :=
  match family with
  | .html | .css => []
  | _ => Unused.ofLines lines found family.style

/-- The description of a file. -/
def description (family : Family) (block : Option MetaBlock) (found : Extraction)
    (fileName : String) : String :=
  match family with
  | .html => Description.page block found.types found.imports fileName
  | .css => Description.stylesheet block found.types found.imports
  | _ => Description.file block found.types found.routines found.imports fileName

/-- The descriptions of the types of a file. -/
def typeDescriptions (family : Family) (types : List TypeDeclaration) : List (String × String) :=
  match family with
  | .html => Description.sections types
  | .css => []
  | _ => Description.types types

/-- The mismatches between a file's annotation and its imports. -/
def warnings (family : Family) (block : Option MetaBlock)
    (imports : List ImportStatement) : List String :=
  match family with
  | .html | .css => []
  | .python => Description.warnings block imports false
  | _ => Description.warnings block imports true

end Family

namespace Summary

/-- The summary of a file's text. -/
def ofText (text : List Char) (fileName tag : String) : Except Failure Summary := do
  let family := Language.family tag
  let lines := Text.splitLines text
  let found ← family.extract lines
  let block := MetaBlock.ofText? text
  return {
    fileName := fileName
    language := if Language.isSupported tag then tag else Language.fallback
    block := block
    types := found.types
    routines := found.routines
    imports := found.imports
    globals := found.globals
    connections := family.connections found.imports
    errorNames := found.errorNames
    riskPoints := found.riskPoints
    totalLines := lines.length
    codeLines := family.codeLineCount lines
    warnings := family.warnings block found.imports
    description := family.description block found fileName
    typeDescriptions := family.typeDescriptions found.types
    hardcoded := family.hardcoded lines
    unused := family.unused lines found
    dependencyStatuses := []
    markers := Marker.ofLines lines
    nameUsages := [] }

end Summary

end SourceSurvey
