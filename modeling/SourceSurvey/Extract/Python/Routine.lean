import SourceSurvey.Extract.Statement

/-!
# Functions of a Python file

The words for types, parameter lists, return types and branches, and the functions outside all
indentation.
-/

namespace SourceSurvey.Extract.Python

/-- The words for literal types. -/
def literalNames : LiteralNames :=
  ⟨"bool", "int", "float", "str", "list", "dict", "tuple", "Any"⟩

/-- The type of what has no annotation. -/
def untyped : String := "Any"

open Pattern

attribute [local instance (high)] Zero.ofOfNat0

/-- The start of a function header: its indentation, whether it is asynchronous, and its name. -/
def functionStart : Pattern (List Char × Bool × List Char) := do
  let indent ← run Text.isSpace 0
  let async ← opt (do lit "async"; blanks1)
  lit "def"
  blanks1
  let name ← run1 Text.isWord
  blanks
  lit "("
  return (indent, async.isSome, name)

/-- The return type between a header's parameters and its colon. -/
def returnType : Pattern (List Char) := do
  blanks
  lit "->"
  blanks
  let type ← runLazy notLineFeed 1
  blanks
  lit ":"
  blanks
  let _ ← opt (do lit "#"; run notLineFeed 0)
  atEnd
  return type

/-- The parameters of a list. A star alone and a slash only separate others. -/
def params (text : List Char) : List Slot :=
  ((topLevelParts ',' text).filter fun part => part != ['*'] && part != ['/']).map fun part =>
    let mark := (part.takeWhile (· == '*')).take 2
    let (name, type, default) :=
      annotatedParts (part.drop mark.length) untyped.toList
    ⟨.ofList (mark ++ name), .ofList type, default.map .ofList⟩

/-- A line whose first word branches. -/
def branchStart : Pattern Unit := do
  let _ ← oneOf ["if", "elif", "else", "for", "while", "except", "case"]
  wordBoundary

/-- The word of a conditional expression or statement. -/
def conditionWord : Pattern Unit := do
  wordBoundary
  lit "if"
  wordBoundary

/-- The branches that one line adds. -/
def branchesOf (code : Line) : Nat :=
  let text := Text.trim code
  let isConditional := "if".toList.isPrefixOf text || "elif".toList.isPrefixOf text
  (if branchStart.matches? text then 1 else 0) +
    (if conditionWord.occursIn text && !isConditional then 1 else 0)

/-- Branch and loop constructs of some lines. -/
def branchCount (code : List Line) : Nat :=
  (code.map branchesOf).sum

/-- The position in a header from which its parameter list is sought. -/
def paramsSearchStart (header : List Char) : Nat :=
  (Text.find? "def ".toList header).getD (header.length - 1)

/-- The function declared at a place. -/
def functionAt (p : Place) (isAsync : Bool) (name : List Char) : Routine :=
  let header := p.header .hash
  let parens := do
    let opening ← Text.findFrom? ['('] header (paramsSearchStart header)
    let closing ← closingParen? header opening
    return (opening, closing)
  let (slots, type) := match parens with
    | some (opening, closing) =>
      (params ((header.take closing).drop (opening + 1)),
        (returnType.matchStart? (header.drop (closing + 1))).map Text.trim)
    | none => ([], none)
  { name := .ofList name
    params := slots
    returnType := (type.map .ofList).getD untyped
    decorators := (p.decorators ["@"]).map .ofList
    line := p.number
    isAsync := isAsync
    isPrivate := name.head? == some '_'
    complexity := branchCount (p.indentedBody.map (·.code)) }

/-- The function declared at a place that is not indented. -/
def topLevelFunction? (p : Place) : Option Routine :=
  match functionStart.matchStart? p.code with
  | some ([], isAsync, name) => some (functionAt p isAsync name)
  | _ => none

end SourceSurvey.Extract.Python
