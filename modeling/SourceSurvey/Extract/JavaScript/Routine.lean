import SourceSurvey.Extract.JavaScript.Basic

/-!
# Functions of a script

Parameter lists, return types and branches, and the three spellings of a function outside all
braces.
-/

namespace SourceSurvey.Extract.JavaScript

open Pattern

/-! ## Parameters -/

/-- Decorators and accessibility modifiers before a parameter. -/
def paramMarks : Pattern Unit := do
  let _ ← many do
    lit "@"
    let _ ← dottedName
    let _ ← opt do
      lit "("
      let _ ← run (· != ')') 0
      lit ")"
    blanks1
  let _ ← modifierWords ["public", "private", "protected", "readonly", "override"]

/-- The parameters of a list; rest parameters keep their dots. -/
def params (text : List Char) : List Slot :=
  (topLevelParts ',' text).filterMap fun part =>
    let (written, type, default) := annotatedParts (paramMarks.dropStart part) untyped.toList
    let bound := Text.trim (Text.trimEndWhile (· == '?') written)
    if bound.isEmpty then none else some ⟨.ofList bound, .ofList type, default.map .ofList⟩

/-- A constructor parameter that declares an attribute. -/
def slotModifier : Pattern Unit := do
  let _ ← oneOf ["public", "private", "protected", "readonly"]
  let _ ← char Text.isSpace

/-- The return type after a parameter list. -/
def returnType : Pattern (List Char) := do
  blanks
  lit ":"
  blanks
  let type ← runLazy (fun c => c != '\x7b' && c != ';') 1
  blanks
  lit "=>" <|> lit "\x7b" <|> lit ";" <|> atEnd
  return type

/-- The parameters and the return type in a header, sought from a position on. -/
def signature (header : List Char) (start : Nat) : List Slot × String :=
  match parenthesised? header start with
  | some (inside, tail) =>
    (params inside, match returnType.matchStart? tail with
      | some type => .ofList (Text.trim type)
      | none => untyped)
  | none => ([], untyped)


/-! ## Routines -/

/-- A line that begins with a branch. -/
def branchStart : Pattern Unit := do
  let elseIf : Pattern Unit := do lit "else"; blanks1; lit "if"
  lit "if" <|> elseIf <|>
    (do let _ ← oneOf ["else", "for", "while", "switch", "case", "catch"])
  wordBoundary

/-- A conditional expression on one line. -/
def conditional : Pattern Unit := do
  let _ ← char fun c => c != '?' && c != '.'
  lit "?"
  let _ ← char fun c => c != '?' && c != '.' && c != ':'
  let _ ← run (· != ':') 0
  lit ":"

/-- The routine declared at a place. -/
def routineAt (p : Place) (bound : List Char) (slots : List Slot) (type : String)
    (modifiers : List String) (isAsync : Bool) : Routine :=
  let decorators := (p.decorators ["@"]).map String.ofList
  { name := .ofList bound
    params := slots
    returnType := type
    decorators := if modifiers.contains "static" then decorators ++ ["static"] else decorators
    line := p.number
    isAsync := isAsync
    isPrivate := modifiers.contains "private" || modifiers.contains "protected" ||
      bound.head?.any fun c => c == '_' || c == '#'
    complexity := branchCount branchStart conditional p.braceBody }

/-- What stands after the name of a generic declaration. -/
def typeParameters : Pattern Unit := do
  let _ ← opt do
    lit "<"
    let _ ← run (fun c => c != '>' && c != '(') 0
    lit ">"

/-- The start of a function declaration: whether it is asynchronous, and its name. -/
def functionStart : Pattern (Bool × List Char) := do
  blanks
  let _ ← optWord "export"
  let _ ← optWord "default"
  let _ ← optWord "declare"
  let isAsync ← optWord "async"
  lit "function"
  blanks
  let _ ← opt (lit "*")
  blanks
  let bound ← name
  blanks
  typeParameters
  blanks
  lit "("
  return (isAsync, bound)

/-- What a constant is assigned when it names a function. -/
inductive Assigned where
  /-- A function expression. -/
  | expression
  /-- An arrow with a parameter list. -/
  | arrow
  /-- An arrow with one parameter and no parentheses. -/
  | short (parameter : List Char)

/-- A function that is assigned. -/
def assigned : Pattern Assigned :=
  (do lit "function"; wordBoundary; let _ ← run (· != '(') 0; lit "("; return .expression) <|>
  (do lit "("; return .arrow) <|>
  (do
    lit "<"
    let _ ← run (fun c => c != '>' && c != '(') 0
    lit ">"
    blanks
    lit "("
    return .arrow) <|>
  (do let parameter ← name; blanks; lit "=>"; return .short parameter)

/-- The type of what is assigned, before the equals sign. -/
def assignedType : Pattern Unit := do
  let _ ← opt do
    lit ":"
    run1 (· != '=')

/-- A constant that is assigned a function: its name, whether it is asynchronous, and the kind. -/
def functionConstant : Pattern (List Char × Bool × Assigned) := do
  blanks
  let _ ← optWord "export"
  let _ ← oneOf ["const", "let", "var"]
  blanks1
  let bound ← name
  blanks
  assignedType
  lit "="
  blanks
  let isAsync ← optWord "async"
  let kind ← assigned
  return (bound, isAsync, kind)

/-- What follows the parameter list of an arrow. -/
def arrowTail : Pattern Unit := do
  blanks
  let _ ← opt do
    lit ":"
    blanks
    runLazy (· != '=') 1
  blanks
  lit "=>"

/-- The position of the equals sign after a name. -/
def assignmentAfter (header bound : List Char) : Option Nat :=
  Text.findFrom? ['='] header (afterName header bound)

/-- The function declared at a place outside all braces. -/
def topLevelFunction? (p : Place) : Option Routine :=
  match functionStart.matchStart? p.code with
  | some (isAsync, bound) =>
    let header := p.header .slash
    let (slots, type) := signature header (afterName header bound)
    some (routineAt p bound slots type [] isAsync)
  | none =>
  match functionConstant.matchStart? p.code with
  | some (bound, isAsync, .short parameter) =>
    some (routineAt p bound [⟨.ofList parameter, untyped, none⟩] untyped [] isAsync)
  | some (bound, isAsync, kind) =>
    let header := p.header .slash
    -- without an equals sign only a parenthesis at the very end of the header is found
    let start := (assignmentAfter header bound).getD (header.length - 1)
    match parenthesised? header start with
    | some (_, tail) =>
      let isFunction := match kind with
        | .expression => true
        | _ => arrowTail.matches? tail
      if isFunction then
        let (slots, type) :=
          signature header ((assignmentAfter header bound).getD 0)
        some (routineAt p bound slots type [] isAsync)
      else none
    | none => none
  | none => none

/-- The functions of a file declared outside all braces. -/
def topLevelFunctions (ps : List Place) : List Routine :=
  (placesWithDepths ps).filterMap fun (depth, p) =>
    if depth = 0 then topLevelFunction? p else none

end SourceSurvey.Extract.JavaScript
