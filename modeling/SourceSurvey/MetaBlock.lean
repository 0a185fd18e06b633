import SourceSurvey.Pattern.Basic
import SourceSurvey.Text.Lines
import SourceSurvey.Text.Trim

/-!
# Meta blocks

A file may open with a comment block of keys and values, between a line that ends in `---meta` and
one that ends in `---`. Keys name the file, its kind and its dependencies.
-/

namespace SourceSurvey

/-- What a meta block declares, with all its keys in order of first appearance. -/
structure MetaBlock where
  name : Option String := none
  type : Option String := none
  desc : Option String := none
  inputs : Option (List String) := none
  outputs : Option (List String) := none
  deps : Option (List String) := none
  methods : Option (List String) := none
  errors : Option (List String) := none
  raw : List (String × String) := []
deriving Repr, DecidableEq, Inhabited

/-- The association with a key set: in place if it is there, else at the end. -/
def setKey {α : Type} (entries : List (String × α)) (key : String) (value : α) :
    List (String × α) :=
  match entries with
  | [] => [(key, value)]
  | (k, v) :: rest => if k == key then (k, value) :: rest else (k, v) :: setKey rest key value

namespace MetaBlock

open Pattern

/-- The mark of a comment line inside a block. -/
def lineMark : Pattern Unit := do
  let _ ← oneOf ["#", "//", "*", "<!--"]

/-- A block, with the text between its first and its last line. -/
def block : Pattern (List Char) := do
  lit "#" <|> lit "//" <|> (do let _ ← opt (lit "/"); lit "*") <|> lit "<!--"
  blanks
  lit "---meta"
  blanks
  lit "\n"
  let inside ← runLazy (fun _ => true) 0
  lit "\n"
  blanks
  lineMark
  blanks
  lit "---"
  return inside

/-- What stands before the text of a line inside a block. -/
def linePrelude : Pattern Unit := do
  blanks
  lineMark
  blanks

/-- A bracketed list. -/
def bracketed : Pattern (List Char) := do
  lit "["
  let inside ← run (· != '\n') 0
  lit "]"
  return inside

/-- The items of a value: those of a bracketed list, or the value alone. -/
def listItems (value : List Char) : Option (List (List Char)) :=
  if value.isEmpty then none
  else match bracketed.search? value with
    | none => some [value]
    | some f => some (((Text.splitAt ',' f.value).map Text.trim).filter (!·.isEmpty))

/-- The text of a line inside a block, without the marks of its comment. -/
def lineText (line : Line) : List Char :=
  let text := Text.trim (linePrelude.dropStart line)
  if Text.endsWith text "-->".toList then Text.trim (text.take (text.length - 3)) else text

/-- The key and the value of a line. -/
def entry? (line : Line) : Option (String × String) :=
  let text := lineText line
  match Text.find? [':'] text with
  | none => none
  | some n =>
    let key := Text.trim (text.take n)
    if key.isEmpty then none else some (.ofList key, .ofList (Text.trim (text.drop (n + 1))))

/-- The value of a key, unless it is empty. -/
def value? (raw : List (String × String)) (key : String) : Option String :=
  (raw.lookup key).filter (!·.isEmpty)

/-- The items of a key's value. -/
def items? (raw : List (String × String)) (key : String) : Option (List String) :=
  ((raw.lookup key).bind fun v => listItems v.toList).map (·.map .ofList)

/-- The block that entries declare. A key given twice has its last value. -/
def ofEntries (entries : List (String × String)) : MetaBlock :=
  let raw := entries.foldl (fun acc (k, v) => setKey acc k v) []
  { name := value? raw "name"
    type := value? raw "type"
    desc := value? raw "desc"
    inputs := items? raw "in"
    outputs := items? raw "out"
    deps := items? raw "deps"
    methods := items? raw "methods"
    errors := items? raw "errors"
    raw := raw }

/-- The first meta block of a text. -/
def ofText? (text : List Char) : Option MetaBlock :=
  (block.search? text).map fun f =>
    ofEntries ((Text.splitAt '\n' f.value).filterMap entry?)

end MetaBlock

end SourceSurvey
