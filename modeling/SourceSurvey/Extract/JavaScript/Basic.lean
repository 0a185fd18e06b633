import SourceSurvey.Extract.BraceLanguage

/-!
# Names of a script

The words for types and the shape of names in JavaScript and TypeScript.
-/

namespace SourceSurvey.Extract.JavaScript

open Pattern

/-- The words for literal types. -/
def literalNames : LiteralNames :=
  ⟨"boolean", "number", "number", "string", "array", "object", "array", "any"⟩

/-- The type of what has no annotation. -/
def untyped : String := "any"

/-- A name. -/
def name : Pattern (List Char) := run1 Text.isNameChar

/-- A name with member accesses. -/
def dottedName : Pattern (List Char) := run1 fun c => Text.isNameChar c || c == '.'

end SourceSurvey.Extract.JavaScript
