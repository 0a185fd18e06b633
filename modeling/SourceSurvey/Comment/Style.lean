import SourceSurvey.Text.Lines

/-!
# Comment styles

The conventions by which a language family writes comments and quoted literals.
-/

namespace SourceSurvey

/-- How comments and literals are written. -/
structure CommentRules where
  /-- Openers of a comment that runs to the end of the line. -/
  lineOpeners : List (List Char)
  /-- Opener and closer of a block comment. -/
  block : Option (List Char × List Char)
  /-- Characters that open and close a literal. -/
  quotes : List Char
  /-- Three equal quotes open a literal that may span lines. -/
  tripleQuotes : Bool
  /-- A backquote opens a literal that may span lines. -/
  templates : Bool
  /-- A hash directly before a square bracket opens an attribute and no comment. -/
  hashAttributes : Bool

namespace CommentRules

/-- Hash comments and triple-quoted literals. -/
def hash : CommentRules where
  lineOpeners := [['#']]
  block := none
  quotes := ['"', '\'']
  tripleQuotes := true
  templates := false
  hashAttributes := false

/-- Double-slash and slash-star comments, template literals. -/
def slash : CommentRules where
  lineOpeners := [['/', '/']]
  block := some (['/', '*'], ['*', '/'])
  quotes := ['"', '\'']
  tripleQuotes := false
  templates := true
  hashAttributes := false

/-- Double-slash, hash and slash-star comments, where a hash may also open an attribute. -/
def slashAndHash : CommentRules where
  lineOpeners := [['/', '/'], ['#']]
  block := some (['/', '*'], ['*', '/'])
  quotes := ['"', '\'']
  tripleQuotes := false
  templates := false
  hashAttributes := true

/-- Slash-star comments only. -/
def stylesheet : CommentRules where
  lineOpeners := []
  block := some (['/', '*'], ['*', '/'])
  quotes := ['"', '\'']
  tripleQuotes := false
  templates := false
  hashAttributes := false

/-- Markup comments and no literals. -/
def markup : CommentRules where
  lineOpeners := []
  block := some (['<', '!', '-', '-'], ['-', '-', '>'])
  quotes := []
  tripleQuotes := false
  templates := false
  hashAttributes := false

/-- The character opens and closes a literal. -/
def isQuote (style : CommentRules) (c : Char) : Bool :=
  style.quotes.contains c || (c == '\x60' && style.templates)

/-- One of the openers stands here and does not open an attribute. The first opener that stands
here decides. -/
def opensLineComment (style : CommentRules) (text : List Char) : Bool :=
  match style.lineOpeners.find? (·.isPrefixOf text) with
  | some opener =>
    !(opener == ['#'] && style.hashAttributes && ['#', '['].isPrefixOf text)
  | none => false

/-- Three equal quotes stand here and the style joins them to one delimiter. -/
def startsTriple (style : CommentRules) (text : List Char) : Bool :=
  style.tripleQuotes &&
    (['"', '"', '"'].isPrefixOf text || ['\'', '\'', '\''].isPrefixOf text)

/-- What begins at a place in code. -/
inductive Opening where
  | blockComment (opener closer : List Char)
  | lineComment
  | literal (delimiter : List Char)
  /-- The character stands for itself. -/
  | plain
deriving Repr, DecidableEq

/-- What begins with a character of code: a block comment before a line comment before a literal,
and three quotes before one. -/
def openingAt (style : CommentRules) (c : Char) (cs : List Char) : Opening :=
  match style.block.filter (·.1.isPrefixOf (c :: cs)) with
  | some (opener, closer) => .blockComment opener closer
  | none =>
    if style.opensLineComment (c :: cs) then .lineComment
    else if style.startsTriple (c :: cs) then .literal [c, c, c]
    else if style.isQuote c then .literal [c]
    else .plain

end CommentRules

end SourceSurvey
