import SourceSurvey.Extract.Php.Basic

/-!
# Functions of a PHP file

Parameter lists, return types and branches, and the declarations of functions.
-/

namespace SourceSurvey.Extract.Php

open Pattern

/-! ## Parameters -/

/-- An attribute in front of a parameter. -/
def paramAttribute : Pattern Unit := do
  let _ ← opt do
    lit "#["
    let _ ← run (· != ']') 0
    lit "]"
    blanks

/-- A parameter without its default: its type and its name, with the dots of a variadic one. -/
def param : Pattern (Option (List Char) × List Char) := do
  paramAttribute
  let _ ← modifierWords ["public", "private", "protected", "readonly"]
  let type ← opt do
    let type ← typeName
    blanks1
    return type
  let _ ← opt (lit "&")
  blanks
  let dots ← opt (lit "...")
  blanks
  let bound ← variableName
  atEnd
  return (type, (if dots.isSome then "...".toList else []) ++ bound)

/-- A variable anywhere in a parameter, with its dots. -/
def looseVariable : Pattern (List Char) := textOf do
  let _ ← opt (lit "...")
  variableName

/-- The parameters of a list. -/
def params (text : List Char) : List Slot :=
  (topLevelParts ',' text).filterMap fun part =>
    let (main, default) := match topLevelPosition? '=' part with
      | some n => (Text.trim (part.take n), some (Text.trim (part.drop (n + 1))))
      | none => (part, none)
    match param.matchStart? main with
    | some (type, bound) =>
      some ⟨.ofList bound, (type.map .ofList).getD untyped, default.map .ofList⟩
    | none => (looseVariable.search? main).map fun f =>
      ⟨.ofList f.value, untyped, default.map .ofList⟩

/-- A constructor parameter that declares a property. -/
def slotModifier : Pattern Unit := do
  paramAttribute
  let _ ← oneOf ["public", "private", "protected", "readonly"]
  let _ ← char Text.isSpace


/-! ## Functions -/

/-- The return type after a parameter list. -/
def returnType : Pattern (List Char) := do
  blanks
  lit ":"
  blanks
  typeName

/-- A line that begins with a branch. -/
def branchStart : Pattern Unit := do
  let elseIf : Pattern Unit := do lit "else"; blanks1; lit "if"
  (do let _ ← oneOf ["if", "elseif"]) <|> elseIf <|>
    (do let _ ← oneOf ["else", "for", "foreach", "while", "switch", "case", "catch"])
  wordBoundary

/-- A conditional expression on one line. -/
def conditional : Pattern Unit := do
  let _ ← char (· != '?')
  lit "?"
  notBefore fun c => c == '?' || c == ':' || c == '>' || c == '-'
  let _ ← run (· != ':') 0
  lit ":"

/-- The name and the parameter list of a function. -/
def functionName : Pattern (List Char) := do
  lit "function"
  blanks1
  let _ ← opt (lit "&")
  blanks
  let bound ← run1 Text.isWord
  blanks
  lit "("
  return bound

/-- The start of a function declaration. -/
def functionStart : Pattern (List Char) := do
  blanks
  functionName

/-- The start of a method declaration. -/
def methodStart : Pattern (List String × List Char) := do
  blanks
  let modifiers ←
    modifierWords ["public", "private", "protected", "static", "abstract", "final"]
  let bound ← functionName
  return (modifiers, bound)

/-- The openers of attribute lines. -/
def attributeOpeners : List String := ["#["]

/-- A name that a single underscore marks as private. -/
def hasPrivateName (bound : List Char) : Bool :=
  ['_'].isPrefixOf bound && !(['_', '_'].isPrefixOf bound)

/-- The function declared at a place. -/
def functionAt (p : Place) (bound : List Char) (modifiers : List String) : Routine :=
  let header := p.header .slashAndHash
  let (slots, type) := match parenthesised? header (afterName header bound) with
    | some (inside, tail) => (params inside, returnType.matchStart? tail)
    | none => ([], none)
  let decorators := (p.decorators attributeOpeners).map String.ofList
  { name := .ofList bound
    params := slots
    returnType := (type.map .ofList).getD untyped
    decorators := if modifiers.contains "static" then decorators ++ ["static"] else decorators
    line := p.number
    isAsync := false
    isPrivate := modifiers.contains "private" || modifiers.contains "protected" ||
      hasPrivateName bound
    complexity := branchCount branchStart conditional p.braceBody }

end SourceSurvey.Extract.Php
