import SourceSurvey.Extract.JavaScript
import SourceSurvey.Failure

/-!
# HTML pages

Linked resources as imports, structural sections as types, and the functions of inline scripts.
-/

namespace SourceSurvey.Extract.Html

open Pattern

/-! ## Linked resources -/

/-- A character of a tag. -/
def inTag (c : Char) : Bool := c != '>'

/-- The equals sign of an attribute. -/
def equals : Pattern Unit := do
  blanks
  lit "="
  blanks

/-- A script element with a source. -/
def scriptSource : Pattern (List Char) := do
  litAnyCase "<script"
  let _ ← run1 inTag
  litAnyCase "src"
  equals
  quotedText

/-- A link element with a target. -/
def linkTarget : Pattern (List Char) := do
  litAnyCase "<link"
  let _ ← run1 inTag
  litAnyCase "href"
  equals
  let target ← quotedText
  let _ ← run inTag 0
  lit ">"
  return target

/-- A stylesheet import with a quoted target. -/
def quotedImport : Pattern (List Char) := do
  lit "@import"
  blanks1
  let _ ← opt (lit "url(")
  blanks
  quotedText

/-- An import of one kind. -/
def linked (p : Place) (kind : String) (target : List Char) : ImportStatement :=
  .spanning (.ofList target) [kind] true p.number p.number

/-- The resources that one line links. -/
def importsAt (p : Place) : List ImportStatement :=
  let script := (scriptSource.search? p.code).map fun f => linked p "script" f.value
  let link := (linkTarget.search? p.code).bind fun f =>
    if Text.contains (Text.lower f.text) "stylesheet".toList ||
        Text.endsWith f.value ".css".toList then
      some (linked p "stylesheet" f.value)
    else none
  let css := (quotedImport.search? p.code).map fun f => linked p "css" f.value
  script.toList ++ link.toList ++ css.toList

/-! ## Sections -/

/-- The tags of structural sections. -/
def structuralTags : List String :=
  ["header", "nav", "main", "section", "article", "aside", "footer", "form", "table", "div"]

/-- An attribute with a quoted value. -/
def attribute? : Pattern (List Char × List Char) := do
  let bound ← textOf do
    let _ ← char fun c => Text.isWord c || c == ':' || c == '@' || c == '-'
    run (fun c => Text.isWord c || c == ':' || c == '.' || c == '-') 0
  equals
  let _ ← char isPlainQuote
  let value ← run (fun c => !isPlainQuote c) 0
  let _ ← char isPlainQuote
  return (bound, value)

/-- The attributes in the text of a tag. -/
def attributes (text : List Char) : List Slot :=
  (attribute?.searchAll text).map fun f =>
    ⟨.ofList f.value.1, "attribute", some (.ofList f.value.2)⟩

/-- A structural tag that takes its line: the tag and the text of its attributes. -/
def sectionTag : Pattern (List Char × List Char) := do
  lit "<"
  let tag ← textOf (oneOfAnyCase structuralTags)
  wordBoundary
  let attributes ← runLazy inTag 0
  let _ ← opt (lit "/")
  let _ ← opt (lit ">")
  blanks
  atEnd
  return (tag, attributes)

/-- The value of the last attribute with a name. -/
def valueOf? (name : String) (attributes : List Slot) : Option (List Char) :=
  ((attributes.filter fun a => a.name == name).getLast?).bind fun a =>
    a.default.map (·.toList)

/-- The name of a section: its tag with its identifier or else its first class. A class of blanks
only has no first one. -/
def sectionName (tag : List Char) (attributes : List Slot) : Except Failure (List Char) :=
  match (valueOf? "id" attributes).filter (!·.isEmpty) with
  | some id => .ok (tag ++ '#' :: id)
  | none =>
    match (valueOf? "class" attributes).filter (!·.isEmpty) with
    | none => .ok tag
    | some classes =>
      match Text.fields classes with
      | [] => .error (.fault .missingMember)
      | first :: _ => .ok (tag ++ '.' :: first)

/-- The section opened at a place. -/
def sectionAt? (p : Place) : Except Failure (Option TypeDeclaration) :=
  match sectionTag.matchStart? (Text.trim p.code) with
  | none => .ok none
  | some (written, text) => do
    let tag := Text.lower written
    let slots := attributes text
    let name ← sectionName tag slots
    return some
      { name := .ofList name
        bases := [.ofList tag]
        attributes := slots
        line := p.number }

/-! ## Scripts -/

/-- The start tag of a script element, with the text of its attributes. -/
def scriptStart : Pattern (List Char) := do
  litAnyCase "<script"
  wordBoundary
  let attributes ← run inTag 0
  lit ">"
  return attributes

/-- The end tag of a script element. -/
def scriptEnd : Pattern Unit := do
  litAnyCase "</script"
  blanks
  lit ">"

/-- The mark of a script that stands elsewhere. -/
def sourceMark : Pattern Unit := do
  wordBoundary
  litAnyCase "src"
  blanks
  lit "="

/-- The type of a script. -/
def scriptType : Pattern (List Char) := do
  wordBoundary
  litAnyCase "type"
  equals
  let _ ← char isPlainQuote
  let type ← run (fun c => !isPlainQuote c) 0
  let _ ← char isPlainQuote
  return type

/-- A script with these attributes stands in the page and is a program. -/
def runsInPage (attributes : List Char) : Bool :=
  if sourceMark.occursIn attributes then false
  else match scriptType.search? attributes with
    | none => true
    | some f =>
      let kind := Text.lower f.value
      Text.contains kind "javascript".toList || kind == "module".toList || kind.isEmpty

/-- The text of inline scripts in the rest of a line, and whether a script is open at its end. The
number bounds the tags that are read. -/
def scriptTextUpTo : Nat → Bool → List Char → List Char × Bool
  | 0, inScript, _ => ([], inScript)
  | n + 1, true, rest =>
    match scriptEnd.search? rest with
    | none => (rest, true)
    | some f =>
      let (text, after) := scriptTextUpTo n false f.after.rest
      (f.before ++ text, after)
  | n + 1, false, rest =>
    match scriptStart.search? rest with
    | none => ([], false)
    | some f => scriptTextUpTo n (runsInPage f.value) f.after.rest

/-- The text of inline scripts on a line, and whether a script is open at its end. A line has no
more tags than characters. -/
def scriptText (inScript : Bool) (line : Line) : Line × Bool :=
  scriptTextUpTo (line.length + 1) inScript line

/-- The text of inline scripts on each line, where a script may be open at the start. -/
def inlineScriptsFrom (inScript : Bool) : List Line → List Line
  | [] => []
  | line :: lines =>
    let (text, after) := scriptText inScript line
    text :: inlineScriptsFrom after lines

/-- The text of inline scripts on each line; all else is blanked. -/
def inlineScripts (lines : List Line) : List Line :=
  inlineScriptsFrom false lines

/-! ## Files -/

/-- What a page declares. -/
def extract (lines : List Line) : Except Failure Extraction := do
  let ps := places (sourceLines .markup lines)
  let sections ← ps.mapM sectionAt?
  let scripts := places (sourceLines .slash (inlineScripts (ps.map (·.code))))
  return {
    imports := ps.flatMap importsAt
    types := sections.filterMap id
    routines := JavaScript.topLevelFunctions scripts
    errorNames := JavaScript.errorNames scripts
    riskPoints := linesMatching guardStart scripts }

end SourceSurvey.Extract.Html
