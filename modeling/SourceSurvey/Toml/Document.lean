import SourceSurvey.Toml.Layout
import SourceSurvey.Toml.Value

/-!
# TOML documents

Headers, which say to which table the lines below them belong, and the value that a text writes.
-/

namespace SourceSurvey.Toml

/-- A step on the way to a table. -/
inductive Step where
  | entry (key : String)
  /-- The last member of a list. -/
  | last
deriving Repr, DecidableEq

/-- The value at the end of a way. -/
def valueAt : List Step → Value → Option Value
  | [], v => some v
  | .entry key :: rest, .mapping entries => (Value.entry? key entries).bind (valueAt rest)
  | .last :: rest, .list members => (members.getLast?).bind (valueAt rest)
  | _, _ => none

/-- A value with another one put at the end of a way. -/
def setAt (new : Value) : List Step → Value → Value
  | [], _ => new
  | .entry key :: rest, .mapping entries =>
    let old := (Value.entry? key entries).getD (.mapping [])
    .mapping (Value.setEntry (.string key) (setAt new rest old) entries)
  | .last :: rest, .list members =>
    match members.getLast? with
    | some old => .list (members.dropLast ++ [setAt new rest old])
    | none => .list []
  | _, old => old

/-- A document as far as it is read. -/
structure Reading where
  root : Value := .mapping []
  /-- The way to the table that lines belong to. -/
  way : List Step := []
  /-- The names of tables that were made on the way to another one. -/
  implied : List String := []
  pending : Option Pending := none

/-! ## Headers -/

/-- A name of a header without quotes. -/
def isBareName (name : List Char) : Bool :=
  !name.isEmpty && name.all fun c => c.isAlphanum || c == '_' || c == '-'

/-- The name inside quotes, if a text is a quoted one. -/
def unquoted? (name : List Char) : Option (List Char) :=
  let text := Text.trim name
  if 1 < text.length && text.head? == text.getLast? then some (inner text) else none

/-- A name in quotes that begins with a part, with the parts after it. Parts are joined until the
last quote is the first one again. -/
def quotedName (name : List Char) :
    List (List Char) → Except DocumentProblem (List Char × List (List Char))
  | [] =>
    match unquoted? name with
    | some whole => .ok (whole, [])
    | none => .error .malformed
  | part :: others =>
    match unquoted? name with
    | some whole => .ok (whole, part :: others)
    | none => quotedName (name ++ '.' :: part) others

/-- The names of a header, from its parts between dots. -/
def headerNames : Nat → List (List Char) → Except DocumentProblem (List (List Char))
  | 0, _ => .ok []
  | _, [] => .ok []
  | n + 1, part :: parts => do
    let name := Text.trim part
    if name.head? == some '"' || name.head? == some '\'' then
      let (whole, others) ← quotedName name parts
      return whole :: (← headerNames n others)
    else if isBareName name then return name :: (← headerNames n parts)
    else .error .malformed

/-- The names of a header, from its line, and whether it is that of a list of tables. -/
def header (line : List Char) : Except DocumentProblem (List (List Char) × Bool) := do
  if line.length == 1 then .error .malformed
  else
    let isList := (line.drop 1).head? == some '['
    let body := line.drop (if isList then 2 else 1)
    let closer := if isList then [']', ']'] else [']']
    let count := 1 + countQuoted closer false (quotePieces body)
    let pieces := splitOnText closer count body
    let isAlone := pieces.getLast?.any Text.isBlank
    if pieces.length < count + 1 || !isAlone then .error .malformed
    else
      let parts := Text.splitAt '.' (Text.join closer pieces.dropLast)
      return (← headerNames parts.length parts, isList)

/-- Why a value cannot be gone into. -/
def noTable : Value → DocumentProblem
  | .string "" => .fault .missingMember
  | _ => .fault .wrongKind

/-- The way into the last member of a list, when a header goes through a list or ends there. -/
def intoLast (way : List Step) (r : Reading) : Except DocumentProblem (List Step) :=
  match valueAt way r.root with
  | some (.mapping _) => .ok way
  | some (.list []) => .error (.fault .missingMember)
  | some (.list _) => .ok (way ++ [.last])
  | some v => .error (noTable v)
  | none => .error .malformed

/-- A new table, or a list with a new table in it. -/
def newTable (isList : Bool) : Value :=
  if isList then .list [.mapping []] else .mapping []

/-- The last name of a header is there already: tables that were only implied may be named, and a
list of tables grows. -/
def nameAgain (isList : Bool) (name : String) (way : List Step) (old : Value) (r : Reading) :
    Except DocumentProblem Reading :=
  if r.implied.contains name then
    if isList then .error .malformed else .ok { r with implied := r.implied.erase name }
  else if !isList then .error .malformed
  else match old with
    | .list members => .ok { r with root := setAt (.list (members ++ [.mapping []])) way r.root }
    | _ => .error (.fault .unsupported)

/-- A name of a header, gone into from where the names before it lead. -/
def enter (isList isFinal : Bool) (name : String) (r : Reading) :
    Except DocumentProblem Reading := do
  if name.isEmpty then .error .malformed
  else
    let (way, isInList) ← match valueAt r.way r.root with
      | some (.mapping _) => pure (r.way, false)
      | some (.list []) => .error (.fault .missingMember)
      | some (.list members) =>
        match members.getLast? with
        | some (.mapping _) => pure (r.way ++ [.last], true)
        | _ => .error (.fault .wrongKind)
      | some v => .error (noTable v)
      | none => .error .malformed
    let next := way ++ [.entry name]
    let r ← match valueAt next r.root with
      | some old =>
        if isFinal && !isInList then nameAgain isList name next old r else pure r
      | none =>
        let new := newTable (isList && isFinal)
        let implied := if isFinal || isInList then r.implied else r.implied ++ [name]
        pure { r with root := setAt new next r.root, implied }
    return { r with way := ← if isList then intoLast next r else pure next }

/-- The names of a header, gone into one after the other. -/
def enterAll (isList : Bool) : List (List Char) → Reading → Except DocumentProblem Reading
  | [], r => .ok r
  | name :: names, r => do
    enterAll isList names (← enter isList names.isEmpty (.ofList name) r)

/-! ## Lines -/

/-- How deep values in a text can nest. -/
def nestingBound (text : List Char) : Nat :=
  4 * text.length + 8

/-- A value of a line with its assignments added to the table that lines belong to. -/
def addTo (r : Reading) (f : Value → Except DocumentProblem (Value × Option Pending)) :
    Except DocumentProblem Reading :=
  match valueAt r.way r.root with
  | none => .error .malformed
  | some old => do
    let (table, pending) ← f old
    return { r with root := setAt table r.way r.root, pending }

/-- A line of a text that goes on over several lines. The text ends at a line whose last signs close
it. -/
def continueText (p : Pending) (line : List Char) (r : Reading) :
    Except DocumentProblem Reading := do
  let text := p.text ++ line
  let q := (text.head?).getD '"'
  let isClosed ←
    if q == '[' then
      match line.getLast? with
      | none => .error (.fault .missingMember)
      | some c => pure (c == ']')
    else pure (2 < line.length && (line.drop (line.length - 3)).all (· == q))
  if isClosed then
    let (v, _) ← value true text (nestingBound text)
    addTo { r with pending := none } fun table =>
      match table with
      | .mapping entries =>
        .ok (.mapping (Value.setEntry (.string (.ofList p.key)) v entries), none)
      | _ => .error (.fault .wrongKind)
  else if endsEscaped text then
    return { r with pending := some ⟨p.key, text.dropLast, true⟩ }
  else return { r with pending := some ⟨p.key, text ++ ['\n'], false⟩ }

/-- A line of a document. -/
def readLine (r : Reading) (line : List Char) : Except DocumentProblem Reading := do
  match r.pending with
  | some p =>
    let isTrimmed := p.text.isEmpty || p.isJoined || !p.text.contains '\n'
    let line := if isTrimmed then Text.trim line else line
    if line.isEmpty && p.isJoined then return r else continueText p line r
  | none =>
    let line := Text.trim line
    match line with
    | [] => return r
    | '[' :: _ =>
      let (names, isList) ← header line
      enterAll isList names { r with way := [] }
    | '\x7b' :: _ =>
      if line.getLast? != some '\x7d' then .error .malformed
      else
        addTo r fun table => do
          let (changed, _) ← inlineTable line table (nestingBound line)
          return (changed, none)
    | _ =>
      if line.contains '=' then addTo r fun table => assignment line table (nestingBound line)
      else return r

/-- The value that a text writes: a table. -/
def parse (text : List Char) : Except DocumentProblem Value := do
  let laidOut ← Layout.layOut text
  return (← (Text.splitAt '\n' laidOut).foldlM readLine {}).root

end SourceSurvey.Toml
