import SourceSurvey.Text.LetterCase
import SourceSurvey.Text.Search
import SourceSurvey.Text.Trim

/-!
# Package names

The spelling under which package names are compared, and the name in a requirement.
-/

namespace SourceSurvey.Package

/-- A sign that names use to join words. -/
def isJoiner (c : Char) : Bool :=
  c == '-' || c == '_' || c == '.'

/-- The spelling under which names are compared: in lower case, with one hyphen for every run of
joining signs. -/
def canonical (name : List Char) : List Char :=
  Text.lower (Text.replaceRuns isJoiner ['-'] name)

/-- The spelling under which names are compared. -/
def canonicalName (name : String) : String :=
  .ofList (canonical name.toList)

/-- A character of the scheme of an address. -/
def isSchemeChar (c : Char) : Bool :=
  Text.isWord c || c == '+' || c == '.' || c == '-'

/-- The text begins with the scheme of an address. -/
def startsWithScheme (text : List Char) : Bool :=
  let scheme := text.takeWhile isSchemeChar
  !scheme.isEmpty && Text.startsWith (text.drop scheme.length) "://".toList

/-- A character that ends the name in a requirement. -/
def endsName (c : Char) : Bool :=
  "=<>!~[;@".toList.contains c || Text.isSpace c

/-- The name in a requirement: what comes before a version, an extra, a marker or an address. Notes,
options and bare addresses have none. -/
def nameOfRequirement? (requirement : List Char) : Option (List Char) :=
  let text := Text.trim requirement
  match text with
  | [] => none
  | c :: _ =>
    if c == '#' || c == '-' || startsWithScheme text then none
    else
      match text.takeWhile (!endsName ·) with
      | [] => none
      | name => some name

end SourceSurvey.Package
