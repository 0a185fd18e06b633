import SourceSurvey.Extract.JavaScript.Basic

/-!
# Imports of a script

Import statements over one or more lines, and calls of `require` that are assigned.
-/

namespace SourceSurvey.Extract.JavaScript

open Pattern

/-- `import clause from "module"`. -/
def importFrom : Pattern (List Char × List Char) := do
  lit "import"
  blanks1
  let _ ← optWord "type"
  let clause ← runLazy notLineFeed 1
  blanks1
  lit "from"
  blanks1
  let module ← quotedText
  return (clause, module)

/-- `import "module"`. -/
def sideEffectImport : Pattern (List Char) := do
  lit "import"
  blanks1
  quotedText

/-- `const target = require("module")`. -/
def requireCall : Pattern (List Char × List Char) := do
  let _ ← optWord "export"
  let _ ← oneOf ["const", "let", "var"]
  blanks1
  let target ← textOf (do lit "\x7b"; let _ ← run (· != '\x7d') 0; lit "\x7d") <|> name
  blanks
  lit "="
  blanks
  lit "require"
  blanks
  lit "("
  blanks
  let module ← quotedText
  blanks
  lit ")"
  return (target, module)

/-- A name without the default that follows it. -/
def withoutDefault (text : List Char) : List Char :=
  Text.trim (Text.beforeFirst '=' (Text.trim text))

/-- The name that an entry of an import list binds. -/
def aliasedName (entry : List Char) : List Char :=
  withoutDefault (((aliasMark.splitOn (Text.trim entry)).getLast?).getD [])

/-- The name that an entry of a destructured require binds. -/
def renamedName (entry : List Char) : List Char :=
  withoutDefault (Text.afterLast ':' entry)

/-- A brace list. -/
def braceList : Pattern (List Char) := do
  lit "\x7b"
  let inside ← run (· != '\x7d') 0
  lit "\x7d"
  return inside

/-- `* as name`. -/
def namespaceImport : Pattern (List Char) := do
  lit "*"
  aliasMark
  let bound ← name
  atEnd
  return bound

/-- The mark of an entry that is a type. -/
def typeMark : Pattern Unit := do
  lit "type"
  blanks1

/-- The names that an import clause binds: those outside its brace list first. -/
def importClause (clause : List Char) : List (List Char) :=
  let found := braceList.search? clause
  let outer := match found with
    | some f => f.before ++ f.after.rest
    | none => clause
  let outerNames := ((Text.splitAt ',' outer).map Text.trim).filter (!·.isEmpty) |>.map fun part =>
    (namespaceImport.matchStart? part).getD part
  let listed := match found with
    | some f =>
      (((Text.splitAt ',' f.value).map fun part => typeMark.dropStart (Text.trim part)).filter
        (!·.isEmpty)).map aliasedName
    | none => []
  outerNames ++ listed

/-- The number of further lines of an import whose brace list opens on its first line. -/
def listExtent (code : Line) : List Line → Nat
  | [] => 0
  | line :: lines => if code.contains '\x7d' then 0 else listExtent line lines + 1

/-- The import at a place, with the number of further lines that it takes. -/
def importsAt (p : Place) : List ImportStatement × Nat :=
  let code := Text.trim p.code
  let isImport := "import".toList.isPrefixOf code
  if !(isImport || Text.contains code "require".toList) then ([], 0)
  else
    let taken :=
      if isImport && code.contains '\x7b' && !code.contains '\x7d' then
        listExtent p.code (p.below.map (·.code))
      else 0
    let statement := joinHeader (some .slash) (p.rawFromHere.take (taken + 1))
    let imports : List ImportStatement :=
      match importFrom.matchStart? statement with
      | some (clause, module) =>
        let names := (importClause clause).map String.ofList
        [.spanning (.ofList module) names true p.number (p.number + taken)]
      | none =>
      match sideEffectImport.matchStart? statement with
      | some module => [.spanning (.ofList module) [] false p.number p.number]
      | none =>
      match requireCall.matchStart? statement with
      | some (target, module) =>
        let names :=
          if target.head? == some '\x7b' then
            let inside := Text.trimWhile (fun c => c == '\x7b' || c == '\x7d') target
            (topLevelParts ',' inside).map renamedName
          else [target]
        let bound := (names.filter (!·.isEmpty)).map String.ofList
        [.spanning (.ofList module) bound false p.number p.number]
      | none => []
    (imports, taken)

end SourceSurvey.Extract.JavaScript
