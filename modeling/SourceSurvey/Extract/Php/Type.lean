import SourceSurvey.Extract.Php.Routine

/-!
# Types of a PHP file

Classes, interfaces and traits with their bases, their methods and their properties.
-/

namespace SourceSurvey.Extract.Php

open Pattern

/-- The start of a class, interface or trait: its name and the texts of its bases. -/
def typeStart : Pattern (List Char × Option (List Char) × Option (List Char)) := do
  blanks
  let _ ← modifierWords ["abstract", "final", "readonly"]
  let _ ← oneOf ["class", "interface", "trait"]
  blanks1
  let bound ← run1 Text.isWord
  let isListChar := fun c => isPathChar c || c == ',' || Text.isSpace c
  let bases ← opt do
    blanks1
    lit "extends"
    blanks1
    runLazy isListChar 1
  let interfaces ← opt do
    blanks1
    lit "implements"
    blanks1
    runLazy isListChar 1
  blanks
  lit "\x7b" <|> atEnd
  return (bound, bases, interfaces)

/-- A property: its type, its name and whether a value is assigned. -/
def property : Pattern (Option (List Char) × List Char × Bool) := do
  blanks
  let _ ← many1 do
    let _ ← oneOf ["public", "private", "protected", "static", "readonly", "var"]
    blanks1
  let type ← opt do
    let type ← typeName
    blanks1
    return type
  lit "$"
  let bound ← run1 Text.isWord
  blanks
  let value ← opt do
    lit "="
    run notLineFeed 0
  let _ ← opt (char fun c => c == ';' || c == ',')
  blanks
  atEnd
  return (type, bound, value.isSome)

/-- A property assigned on the instance. -/
def thisAttribute : Pattern (List Char) := do
  lit "$this->"
  let bound ← run1 Text.isWord
  blanks
  lit "="
  notBefore fun c => c == '=' || c == '>'
  return bound

/-- The value that a line assigns. -/
def valueOf? (line : Line) : Option (List Char) :=
  assignedValue? .slashAndHash (fun c => c == ';' || c == ',') line

/-- The name of a property as it is written. -/
def propertyName (bound : List Char) : String :=
  .ofList ('$' :: bound)

/-- The property declared at a place of a type body. -/
def property? (p : Place) : Option Slot :=
  (property.matchStart? p.code).map fun (type, bound, hasValue) =>
    let value := if hasValue then valueOf? p.raw else none
    { name := propertyName bound
      type := match type, value with
        | some t, _ => .ofList t
        | none, some v => literalType literalNames v
        | none, none => untyped
      default := value.map .ofList }

/-- The properties that the constructor at a place declares by its parameters. -/
def constructorSlots (p : Place) : List Slot :=
  let header := p.header .slashAndHash
  let start := (Text.find? "__construct".toList header).getD (header.length - 1)
  match parenthesised? header start with
  | some (inside, _) =>
    ((topLevelParts ',' inside).filter fun part => slotModifier.matches? part).flatMap params
  | none => []

/-- The properties assigned on the instance by one line. -/
def assignedProperties (code : Line) : List Slot :=
  (thisAttribute.searchAll code).map fun f => ⟨propertyName f.value, untyped, none⟩

/-- What one line of a type body declares: a method, and properties. -/
def membersAt (depth : Int) (p : Place) : Option Routine × List Slot :=
  let assigned := assignedProperties p.code
  if depth = 1 then
    match methodStart.matchStart? p.code with
    | some (modifiers, bound) =>
      let method := functionAt p bound modifiers
      (some method,
        (if method.name == "__construct" then constructorSlots p else []) ++ assigned)
    | none => (none, (property? p).toList ++ assigned)
  else (none, assigned)

/-- The names in a list of bases. -/
def baseNames (text : List Char) : List (List Char) :=
  ((Text.splitAt ',' text).map Text.trim).filter (!·.isEmpty)

/-- The type declared at a place. -/
def typeAt? (p : Place) : Option TypeDeclaration :=
  match typeStart.matchStart? p.code with
  | none => none
  | some (bound, bases, interfaces) =>
    let members := membersOfBody assignedProperties membersAt p
    some
      { name := .ofList bound
        bases := ((bases.toList ++ interfaces.toList).flatMap baseNames).map .ofList
        methods := members.filterMap (·.1)
        attributes := distinctBy (·.name) (members.flatMap (·.2))
        decorators := (p.decorators attributeOpeners).map .ofList
        line := p.number }

end SourceSurvey.Extract.Php
