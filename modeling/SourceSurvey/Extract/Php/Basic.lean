import SourceSurvey.Extract.BraceLanguage

/-!
# Names of a PHP file

The words for types and the shapes of paths, types and variables in PHP.
-/

namespace SourceSurvey.Extract.Php

open Pattern

/-- The words for literal types. -/
def literalNames : LiteralNames :=
  ⟨"bool", "int", "float", "string", "array", "array", "array", "mixed"⟩

/-- The type of what has no annotation. -/
def untyped : String := "mixed"

/-- A character of a name or of a path of names. -/
def isPathChar (c : Char) : Bool :=
  Text.isWord c || c == '\\'

/-- A character of a type, which may be a union. -/
def isTypeChar (c : Char) : Bool :=
  isPathChar c || c == '|'

/-- A type, perhaps a nullable one. -/
def typeName : Pattern (List Char) := textOf do
  let _ ← opt (lit "?")
  run1 isTypeChar

/-- A variable with its dollar sign. -/
def variableName : Pattern (List Char) := textOf do
  lit "$"
  run1 Text.isWord

end SourceSurvey.Extract.Php
