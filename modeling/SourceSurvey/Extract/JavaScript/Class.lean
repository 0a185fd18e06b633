import SourceSurvey.Extract.JavaScript.Routine

/-!
# Classes of a script

Classes with their bases, their methods and the attributes that fields, constructor parameters and
assignments declare.
-/

namespace SourceSurvey.Extract.JavaScript

open Pattern

/-- Words that may stand before a member. -/
def memberModifiers : Pattern (List String) :=
  modifierWords ["public", "private", "protected", "static", "readonly", "abstract", "override",
    "declare", "async", "get", "set"]

/-- Words that begin a statement and name no member. -/
def notMembers : List String :=
  ["if", "for", "while", "switch", "catch", "return", "function", "new", "super", "typeof", "else",
    "do", "with", "await", "yield"]

/-- The name of a member, perhaps a private one. -/
def memberName : Pattern (List Char) := textOf do
  let _ ← opt (lit "#")
  name

/-- A mark of an optional or definitely assigned member. -/
def presenceMark : Pattern Unit := do
  let _ ← opt (char fun c => c == '?' || c == '!')

/-- A field that is assigned an arrow: its modifiers, its name, whether it is asynchronous, and the
parameter without parentheses. -/
def fieldArrow : Pattern (List String × List Char × Bool × Option (List Char)) := do
  blanks
  let modifiers ← memberModifiers
  let bound ← memberName
  blanks
  assignedType
  lit "="
  blanks
  let isAsync ← optWord "async"
  let parameter ← (do lit "("; return none) <|>
    (do let parameter ← name; blanks; lit "=>"; return some parameter)
  return (modifiers, bound, isAsync, parameter)

/-- The start of a method: its modifiers and its name with a generator's star. -/
def methodStart : Pattern (List String × List Char) := do
  blanks
  let modifiers ← memberModifiers
  let starred ← textOf do
    let _ ← opt (lit "*")
    blanks
    let _ ← opt (lit "#")
    name
  blanks
  presenceMark
  blanks
  typeParameters
  blanks
  lit "("
  return (modifiers, starred)

/-- A field: its name, its type and whether a value is assigned. -/
def field : Pattern (List Char × Option (List Char) × Bool) := do
  blanks
  let _ ← memberModifiers
  let bound ← memberName
  blanks
  presenceMark
  blanks
  let type ← opt do
    lit ":"
    blanks
    runLazy (fun c => c != '=' && c != ';') 1
  blanks
  let value ← opt do
    lit "="
    run notLineFeed 0
  let _ ← opt (lit ";")
  blanks
  atEnd
  return (bound, type, value.isSome)

/-- An attribute assigned on the instance. -/
def thisAttribute : Pattern (List Char) := do
  wordBoundary
  lit "this."
  let bound ← memberName
  blanks
  lit "="
  notBefore (· == '=')
  return bound

/-- The method or arrow field declared at a place of a class body. -/
def member? (p : Place) : Option Routine :=
  match fieldArrow.matchStart? p.code with
  | some (modifiers, bound, isAsync, some parameter) =>
    some (routineAt p bound [⟨.ofList parameter, untyped, none⟩] untyped modifiers isAsync)
  | some (modifiers, bound, isAsync, none) =>
    let header := p.header .slash
    let (slots, type) := signature header ((assignmentAfter header bound).getD 0)
    some (routineAt p bound slots type modifiers isAsync)
  | none =>
  match methodStart.matchStart? p.code with
  | none => none
  | some (modifiers, starred) =>
    let bound := Text.trim (starred.dropWhile (· == '*'))
    if notMembers.contains (.ofList bound) then none
    else
      let header := p.header .slash
      let (slots, type) := signature header (afterName header bound)
      some (routineAt p bound (slots.filter fun slot => slot.name != "this") type modifiers
        (modifiers.contains "async"))

/-- The attributes that the constructor at a place declares by its parameters. -/
def constructorSlots (p : Place) : List Slot :=
  match parenthesised? (p.header .slash) 0 with
  | some (inside, _) =>
    ((topLevelParts ',' inside).filter fun part => slotModifier.matches? part).flatMap params
  | none => []

/-- The value that a line assigns. -/
def valueOf? (line : Line) : Option (List Char) :=
  assignedValue? .slash (· == ';') line

/-- The field declared at a place of a class body. -/
def field? (p : Place) : Option Slot :=
  match field.matchStart? p.code with
  | none => none
  | some (bound, type, hasValue) =>
    if notMembers.contains (.ofList bound) then none
    else
      let value := if hasValue then valueOf? p.raw else none
      let written := (type.map Text.trim).filter (!·.isEmpty)
      some
        { name := .ofList bound
          type := match written, value with
            | some t, _ => .ofList t
            | none, some v => literalType literalNames v
            | none, none => untyped
          default := value.map .ofList }

/-- A line that may declare a member: neither blank nor a decorator nor a closing brace. -/
def mayDeclareMember (code : Line) : Bool :=
  match (Text.trim code).head? with
  | none => false
  | some c => c != '@' && c != '\x7d'

/-- The attributes assigned on the instance by one line. -/
def assignedAttributes (code : Line) : List Slot :=
  (thisAttribute.searchAll code).map fun f => ⟨.ofList f.value, untyped, none⟩

/-- What one line of a class body declares: a method, and attributes. -/
def membersAt (depth : Int) (p : Place) : Option Routine × List Slot :=
  let assigned := assignedAttributes p.code
  if depth = 1 && mayDeclareMember p.code then
    match member? p with
    | some method =>
      (some method,
        (if method.name == "constructor" then constructorSlots p else []) ++ assigned)
    | none => (none, (field? p).toList ++ assigned)
  else (none, assigned)

/-- The start of a class header: its name, its base and the text of its interfaces. -/
def classStart : Pattern (List Char × Option (List Char) × Option (List Char)) := do
  blanks
  let _ ← optWord "export"
  let _ ← optWord "default"
  let _ ← optWord "abstract"
  lit "class"
  blanks1
  let bound ← name
  let generics : Pattern Unit := do
    let _ ← opt do
      blanks
      lit "<"
      let _ ← runLazy (· != '\x7b') 0
      lit ">"
  generics
  let base ← opt do
    blanks1
    lit "extends"
    blanks1
    let base ← dottedName
    generics
    return base
  let interfaces ← opt do
    blanks1
    lit "implements"
    blanks1
    runLazy (· != '\x7b') 1
  blanks
  lit "\x7b" <|> atEnd
  return (bound, base, interfaces)

/-- The class declared at a place. -/
def classAt? (p : Place) : Option TypeDeclaration :=
  match classStart.matchStart? p.code with
  | none => none
  | some (bound, base, interfaces) =>
    let members := membersOfBody assignedAttributes membersAt p
    some
      { name := .ofList bound
        bases := (base.toList ++
          (interfaces.map (topLevelParts ',')).getD []).map .ofList
        methods := members.filterMap (·.1)
        attributes := distinctBy (·.name) (members.flatMap (·.2))
        decorators := (p.decorators ["@"]).map .ofList
        line := p.number }

end SourceSurvey.Extract.JavaScript
