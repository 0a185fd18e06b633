import SourceSurvey.Comment.Style
import SourceSurvey.Text.LetterCase
import SourceSurvey.Text.Lines

/-!
# Languages

The language tags of editors, the families that are surveyed alike, and the file extensions that
imply a tag.
-/

namespace SourceSurvey

/-- A family of languages that are surveyed alike. -/
inductive Family where
  | python | javascript | php | html | css
deriving Repr, DecidableEq, Inhabited

namespace Family

/-- The word for a family. -/
def name : Family → String
  | .python => "python"
  | .javascript => "javascript"
  | .php => "php"
  | .html => "html"
  | .css => "css"

/-- All families. -/
def all : List Family :=
  [.python, .javascript, .php, .html, .css]

/-- The family with a name. -/
def ofName? (name : String) : Option Family :=
  all.find? fun f => f.name == name

/-- How a family writes comments and literals. -/
def style : Family → CommentRules
  | .python => .hash
  | .javascript => .slash
  | .php => .slashAndHash
  | .html => .markup
  | .css => .stylesheet

end Family

namespace Language

/-- The tag of what is not supported. -/
def fallback : String := "python"

/-- The supported tags with their families. -/
def tags : List (String × Family) := [
  ("python", .python),
  ("javascript", .javascript),
  ("typescript", .javascript),
  ("javascriptreact", .javascript),
  ("typescriptreact", .javascript),
  ("php", .php),
  ("html", .html),
  ("css", .css)]

/-- The file extensions with their tags. -/
def extensions : List (String × String) := [
  (".py", "python"),
  (".pyw", "python"),
  (".js", "javascript"),
  (".mjs", "javascript"),
  (".cjs", "javascript"),
  (".jsx", "javascriptreact"),
  (".ts", "typescript"),
  (".mts", "typescript"),
  (".tsx", "typescriptreact"),
  (".php", "php"),
  (".html", "html"),
  (".htm", "html"),
  (".css", "css")]

/-- The tag is supported. -/
def isSupported (tag : String) : Bool :=
  (tags.lookup tag).isSome

/-- The supported tags. -/
def supported : List String :=
  tags.map (·.1)

/-- The family of a tag; a tag that is not supported counts as the fallback. -/
def family (tag : String) : Family :=
  (tags.lookup tag).getD .python

/-- The tag that a file extension implies, in any letter case. -/
def ofExtension? (suffix : String) : Option String :=
  extensions.lookup (.ofList (Text.lower suffix.toList))

/-- The comment style by which hardcoded values are sought for a language name: that of a family
of code, and of the fallback for all others. -/
def codeStyle (name : String) : CommentRules :=
  match Family.ofName? name with
  | some .javascript => .slash
  | some .php => .slashAndHash
  | _ => .hash

end Language

end SourceSurvey
