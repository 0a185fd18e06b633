import SourceSurvey.Extract.Statement

/-!
# Imports of a Python file

Import statements that end with their line, go on after a backslash or stand in parentheses.
-/

namespace SourceSurvey.Extract.Python

open Pattern

/-- A module name with leading dots, or without. -/
def modulePath : Pattern (List Char) :=
  let isPart := fun c => Text.isWord c || c == '.'
  textOf (do let _ ← run1 (· == '.'); run isPart 0) <|> run1 isPart

/-- `from module import names` with the text of the names. -/
def fromStatement : Pattern (List Char × List Char) := do
  lit "from"
  blanks1
  let module ← modulePath
  blanks1
  lit "import"
  blanks1
  let names ← run1 notLineFeed
  atEnd
  return (module, names)

/-- `import modules` with the text of the modules. -/
def importStatement : Pattern (List Char) := do
  lit "import"
  blanks1
  let modules ← run1 notLineFeed
  atEnd
  return modules

/-- The name that an entry of an import binds: its alias, or the name itself. -/
def bindingName (entry : List Char) : List Char :=
  let text := Text.trim (Text.trimWhile (· == '\\') (Text.trim entry))
  Text.trim (((aliasMark.splitOn text).getLast?).getD [])

/-- The names of a list go on: its parenthesis is open or a backslash continues the line. -/
def namesGoOn (text : List Char) : Bool :=
  (text.head? == some '(' && !text.contains ')') || text.getLast? == some '\\'

/-- The modules of a plain import go on after a backslash. -/
def modulesGoOn (text : List Char) : Bool :=
  (Text.trimEnd text).getLast? == some '\\'

/-- The import statement at a place, with the number of further lines that it takes. -/
def importsAt (p : Place) : List ImportStatement × Nat :=
  let line := Text.trim p.code
  let below := p.below.map (·.code)
  match fromStatement.matchStart? line with
  | some (module, rest) =>
    let (text, taken) := extendWhile namesGoOn
      (fun t l => Text.trimEndWhile (· == '\\') t ++ ' ' :: Text.trim l) (Text.trim rest) below
    let entries := Text.splitAt ',' (Text.trimWhile (fun c => c == '(' || c == ')') text)
    let names := (entries.map bindingName).filter (!·.isEmpty)
    ([.spanning (.ofList module) (names.map .ofList) true p.number (p.number + taken)], taken)
  | none =>
    match importStatement.matchStart? line with
    | some rest =>
      let (text, taken) := extendWhile modulesGoOn
        (fun t l => Text.trimEndWhile (· == '\\') (Text.trimEnd t) ++ ' ' :: Text.trim l) rest below
      let entries := Text.splitAt ',' text
      let imports := entries.filterMap fun entry =>
        (Text.fields entry).head?.map fun module =>
          .spanning (.ofList module) [.ofList (bindingName entry)] false p.number (p.number + taken)
      (imports, taken)
    | none => ([], 0)

end SourceSurvey.Extract.Python
