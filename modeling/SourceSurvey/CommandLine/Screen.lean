import SourceSurvey.Language
import SourceSurvey.Summary.Basic
import SourceSurvey.Text.Search

/-!
# Screens

What the program shows to a reader: lines, panels and tables of markup. Markup is text with styles in
brackets, as a terminal shows them; other text is protected from being read as such.
-/

namespace SourceSurvey.CommandLine

/-! ## Markup -/

/-- A character that may follow the bracket of a style. -/
def isStyleStart (c : Char) : Bool :=
  ('a' ≤ c && c ≤ 'z') || c == '#' || c == '/' || c == '@'

/-- A style in brackets begins here. -/
def beginsStyle : List Char → Bool
  | '[' :: c :: rest => isStyleStart c && rest.find? (fun d => d == '[' || d == ']') == some ']'
  | _ => false

/-- A text protected after so many backslashes: those before the bracket of a style are doubled, and
one more is put there. -/
def protectedAfter (slashes : Nat) : List Char → List Char
  | [] => List.replicate slashes '\\'
  | c :: cs =>
    if c == '\\' then protectedAfter (slashes + 1) cs
    else
      let before := if beginsStyle (c :: cs) then 2 * slashes + 1 else slashes
      List.replicate before '\\' ++ c :: protectedAfter 0 cs

/-- The text ends with a single backslash. -/
def endsSingle (text : List Char) : Bool :=
  Text.endsWith text ['\\'] && !Text.endsWith text ['\\', '\\']

/-- A text as it has to be written to be shown as it is. A single backslash at its end is doubled,
so that it does not protect what follows. -/
def literalMarkup (text : String) : String :=
  let body := protectedAfter 0 text.toList
  .ofList (if endsSingle body then body ++ ['\\'] else body)

/-- Markup in a style. -/
def styled (style markup : String) : String :=
  "[" ++ style ++ "]" ++ markup ++ "[/" ++ style ++ "]"

/-! ## Tables -/

/-- A column of a table. -/
structure Column where
  title : String
  style : String
deriving Repr, DecidableEq

/-- A table of markup. -/
structure Table where
  title : String
  columns : List Column
  rows : List (List String)
deriving Repr, DecidableEq

/-- A part of a screen. -/
inductive Block where
  | line (markup : String)
  | panel (markup style : String)
  | table (t : Table)
deriving Repr, DecidableEq

/-- A block as plain lines of markup; the cells of a table have bars between them. -/
def Block.text : Block → String
  | .line markup => markup
  | .panel markup _ => markup
  | .table t =>
    let row := " | ".intercalate
    "\n".intercalate (t.title :: row (t.columns.map (·.title)) :: t.rows.map row)

namespace Screen

/-- The table of a list, if it has members. -/
def tableOf {α : Type} (title : String) (columns : List Column) (row : α → List String)
    (items : List α) : List Block :=
  if items.isEmpty then [] else [.table ⟨title, columns, items.map row⟩]

/-- A heading with a line for each member of a list, if it has members. -/
def listOf {α : Type} (title : String) (entry : α → String) (items : List α) : List Block :=
  if items.isEmpty then []
  else .line ("\n" ++ styled "bold" (title ++ ":")) :: items.map fun a => .line ("  • " ++ entry a)

/-- Names with commas between them. -/
def names (texts : List String) : String :=
  literalMarkup (", ".intercalate texts)

/-- The panel that names a file and describes it. -/
def panel (s : Summary) : Block :=
  .panel (styled "bold cyan" (literalMarkup s.fileName) ++ " (" ++ s.language ++ ")\n" ++
    literalMarkup s.description) "cyan"

/-- The line of counts. -/
def counts (s : Summary) : Block :=
  let blue := fun n : Nat => styled "blue" (toString n)
  .line ("Lines: " ++ styled "green" (toString s.codeLines) ++ " code / " ++
    toString s.totalLines ++ " total, " ++ blue s.imports.length ++ " imports, " ++
    blue s.types.length ++ " types, " ++ blue s.routines.length ++ " functions")

/-- The table of types. -/
def types : List TypeDeclaration → List Block :=
  tableOf "Types"
    [⟨"Name", "cyan"⟩, ⟨"Line", "dim"⟩, ⟨"Bases", "yellow"⟩, ⟨"Methods", "green"⟩,
      ⟨"Attributes", "blue"⟩]
    fun t => [literalMarkup t.name, toString t.line, names t.bases,
      names (t.methods.map (·.name)), names (t.attributes.map (·.name))]

/-- The table of functions and methods. -/
def routines : List Routine → List Block :=
  tableOf "Callables"
    [⟨"Name", "cyan"⟩, ⟨"Line", "dim"⟩, ⟨"Params", "yellow"⟩, ⟨"Returns", "green"⟩,
      ⟨"Complexity", "red"⟩]
    fun c => [literalMarkup ((if c.isAsync then "async " else "") ++ c.name), toString c.line,
      names (c.params.map (·.name)), literalMarkup c.returnType, toString c.complexity]

/-- A place in a list of findings. -/
def atLine (line : Nat) : String :=
  "line " ++ toString line ++ " "

/-- The list of hardcoded values. -/
def hardcoded : List HardcodedLiteral → List Block :=
  listOf "Hardcoded values" fun h => atLine h.line ++ styled "red" h.kind.name ++ " " ++
    literalMarkup h.context ++ ": " ++ literalMarkup h.value

/-- The list of unused declarations. -/
def unused : List UnusedName → List Block :=
  listOf "Unused" fun u => atLine u.line ++ u.kind.name ++ " " ++
    styled "yellow" (literalMarkup u.name)

/-- The list of markers. -/
def markers : List MarkerNote → List Block :=
  listOf "Markers" fun m => atLine m.line ++ styled "magenta" m.kind ++ " " ++
    literalMarkup m.text

/-- The lines of warnings. -/
def warnings (texts : List String) : List Block :=
  texts.map fun w => .line (styled "yellow" ("Warning: " ++ literalMarkup w))

/-- The colour of a status. -/
def colour : InstallStatus → String
  | .installed => "green"
  | .missing => "red"
  | .unknown => "yellow"

/-- The table of dependencies. -/
def dependencyTable : List DependencyStatus → List Block :=
  tableOf "Dependencies"
    [⟨"Package", "cyan"⟩, ⟨"Line", "dim"⟩, ⟨"Status", ""⟩, ⟨"Install", "dim"⟩]
    fun d => [literalMarkup d.name, toString d.line, styled (colour d.status) d.status.name,
      literalMarkup (d.installHint.getD "")]

/-- The screen of dependencies. -/
def dependencies (issues : List DependencyStatus) : List Block :=
  if issues.isEmpty then [.line "No external dependencies found"] else dependencyTable issues

/-- The list of uses in other files. -/
def usages : List NameUsage → List Block :=
  listOf "Used from other files" fun u => u.kind ++ " " ++
    styled "cyan" (literalMarkup u.name) ++ ": " ++ names u.usedIn

/-- The screen of a summary. -/
def summary (s : Summary) : List Block :=
  [panel s, counts s] ++ types s.types ++ routines s.allRoutines ++ hardcoded s.hardcoded ++
    unused s.unused ++ markers s.markers ++ warnings s.warnings ++
    dependencyTable s.dependencyStatuses ++ usages s.nameUsages

/-- The screen of supported languages. -/
def languages : List Block :=
  [.table ⟨"Supported Languages",
    [⟨"Tag", "cyan"⟩, ⟨"Family", "yellow"⟩, ⟨"Extensions", "green"⟩],
    Language.tags.map fun (tag, family) =>
      let extensions := (Language.extensions.filter fun (_, t) => t == tag).map (·.1)
      [tag, family.name, ", ".intercalate extensions]⟩]

/-- The line that tells of an error. -/
def error (message : String) : Block :=
  .line (styled "red" ("Error: " ++ literalMarkup message))

end Screen

end SourceSurvey.CommandLine
