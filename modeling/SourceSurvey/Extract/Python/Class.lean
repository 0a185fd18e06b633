import SourceSurvey.Extract.Python.Routine

/-!
# Classes of a Python file

Classes with their bases, the methods at the indentation of their bodies, and the attributes that
fields and assignments declare.
-/

namespace SourceSurvey.Extract.Python

open Pattern

/-- The start of a class header: the name and what follows it. -/
def classStart : Pattern (List Char × Char) := do
  blanks
  lit "class"
  blanks1
  let name ← run1 Text.isWord
  blanks
  let opener ← char fun c => c == '(' || c == ':'
  return (name, opener)

/-- Words that begin a statement and name no field. -/
def notAttributes : List String :=
  ["pass", "return", "raise", "yield", "del", "global", "nonlocal", "assert", "break", "continue"]

/-- The indentation of the first line of a body that is not blank. -/
def baseline? (body : List Place) : Option Nat :=
  (body.find? fun p => !Text.isBlank p.code).map fun p => Text.indentWidth p.code

/-- The bases in a class header; keyword arguments are none. -/
def basesOf (header : List Char) : List (List Char) :=
  let inside := do
    let opening ← Text.find? ['('] header
    let closing ← closingParen? header opening
    return (header.take closing).drop (opening + 1)
  match inside with
  | some text => (topLevelParts ',' text).filter fun b => (topLevelPosition? '=' b).isNone
  | none => []

/-- The method declared at a place of a class body with the given indentation. -/
def methodAt? (baseline : Nat) (p : Place) : Option Routine :=
  match functionStart.matchStart? p.code with
  | some (indent, isAsync, name) =>
    if indent.length = baseline then
      let method := functionAt p isAsync name
      some { method with
        params := method.params.filter fun slot => slot.name != "self" && slot.name != "cls" }
    else none
  | none => none

/-- A field with its type and whether a value is assigned. -/
def field : Pattern (List Char × Option (List Char) × Bool) := do
  let name ← run1 Text.isWord
  blanks
  let type ← opt do
    lit ":"
    blanks
    runLazy (· != '=') 1
  blanks
  let value ← opt do
    lit "="
    notBefore (· == '=')
    run notLineFeed 0
  atEnd
  return (name, type, value.isSome)

/-- An attribute assigned on the instance. -/
def selfAttribute : Pattern (List Char × Option (List Char)) := do
  wordBoundary
  lit "self."
  let name ← run1 Text.isWord
  let type ← annotatedAssignment
  return (name, type)

/-- The value that a line assigns. -/
def valueOf? (line : Line) : Option (List Char) :=
  assignedValue? .hash (fun _ => false) line

/-- An attribute whose type is written or shown by its value. -/
def attributeOf (name : List Char) (type value : Option (List Char)) (keepsDefault : Bool) : Slot :=
  let written := (type.map Text.trim).filter (!·.isEmpty)
  { name := .ofList name
    type := match written, value with
      | some t, _ => .ofList t
      | none, some v => literalType literalNames v
      | none, none => untyped
    default := if keepsDefault then value.map .ofList else none }

/-- A line of a class body that declares a field rather than a member. -/
def isFieldLine (baseline : Nat) (code : Line) : Bool :=
  Text.indentWidth code == baseline &&
    !(["@", "def ", "async ", "class "].any (·.toList.isPrefixOf (Text.trim code)))

/-- The attributes that one line of a class body declares. -/
def attributesAt (baseline : Nat) (p : Place) : List Slot :=
  if Text.isBlank p.code then []
  else if isFieldLine baseline p.code then
    match field.matchStart? (Text.trim p.code) with
    | some (name, type, hasValue) =>
      if !(notAttributes.contains (.ofList name)) && (type.isSome || hasValue) then
        [attributeOf name type (if hasValue then valueOf? p.raw else none) true]
      else []
    | none => []
  else
    (selfAttribute.searchAll p.code).map fun f =>
      attributeOf f.value.1 f.value.2 (valueOf? p.raw) false

/-- The class declared at a place. -/
def classAt? (p : Place) : Option TypeDeclaration :=
  match classStart.matchStart? p.code with
  | none => none
  | some (name, opener) =>
    let body := p.indentedBody
    let bases := if opener == '(' then basesOf (p.header .hash) else []
    let (methods, attributes) := match baseline? body with
      | some baseline =>
        (body.filterMap (methodAt? baseline), body.flatMap (attributesAt baseline))
      | none => ([], [])
    some
      { name := .ofList name
        bases := bases.map .ofList
        methods := methods
        attributes := distinctBy (·.name) attributes
        decorators := (p.decorators ["@"]).map .ofList
        line := p.number }

end SourceSurvey.Extract.Python
