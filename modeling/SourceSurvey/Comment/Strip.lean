import SourceSurvey.Comment.Style
import SourceSurvey.Text.Trim

/-!
# Stripped lines

A stripped copy of a file has no comments and no literal contents, so that brackets and words in
it are those of the code. Literals keep their delimiters. Every line of the file has one line in
the copy, and a comment or literal that runs over several lines carries on from line to line. Where
the comment at the end of a line starts is also read from that line alone.
-/

namespace SourceSurvey

/-- What a place in a file lies in. -/
inductive Region where
  | code
  /-- A block comment, with the text that closes it. -/
  | comment (closer : List Char)
  /-- A literal, with its delimiter. -/
  | literal (delimiter : List Char)
deriving Repr, DecidableEq

namespace CommentRules

/-- Strips the rest of a line. The number says how many characters are already read as part of a
delimiter or an escape. A line comment ends the line. -/
def stripFrom (style : CommentRules) : Nat → Region → List Char → Line × Region
  | _, region, [] => ([], region)
  | n + 1, region, _ :: cs => stripFrom style n region cs
  | 0, .comment closer, c :: cs =>
    if closer.isPrefixOf (c :: cs) then stripFrom style (closer.length - 1) .code cs
    else stripFrom style 0 (.comment closer) cs
  | 0, .literal delimiter, c :: cs =>
    if c == '\\' then stripFrom style 1 (.literal delimiter) cs
    else if delimiter.isPrefixOf (c :: cs) then
      let (out, region) := stripFrom style (delimiter.length - 1) .code cs
      (delimiter ++ out, region)
    else stripFrom style 0 (.literal delimiter) cs
  | 0, .code, c :: cs =>
    match style.openingAt c cs with
    | .blockComment opener closer => stripFrom style (opener.length - 1) (.comment closer) cs
    | .lineComment => ([], .code)
    | .literal delimiter =>
      let (out, region) := stripFrom style (delimiter.length - 1) (.literal delimiter) cs
      (delimiter ++ out, region)
    | .plain =>
      let (out, region) := stripFrom style 0 .code cs
      (c :: out, region)

/-- What carries on to the next line: block comments, triple-quoted literals and templates. -/
def carried : Region → Region
  | .literal [q] => if q == '\x60' then .literal [q] else .code
  | region => region

/-- Strips one line that begins in a region. A line that begins in a comment or a literal keeps its
indentation. -/
def stripLine (style : CommentRules) (region : Region) (line : Line) : Line × Region :=
  match region with
  | .code => style.stripFrom 0 .code line
  | _ =>
    let (out, after) := style.stripFrom 0 region (Text.trimStart line)
    (Text.indentation line ++ out, after)

/-- Strips the lines of a file that go on in a region. -/
def stripLines (style : CommentRules) (region : Region) : List Line → List Line
  | [] => []
  | line :: lines =>
    let (out, after) := style.stripLine region line
    out :: style.stripLines (carried after) lines

/-- The stripped copy of a file. -/
def strip (style : CommentRules) (lines : List Line) : List Line :=
  style.stripLines .code lines

/-! ## Trailing line comments -/

/-- The position of the line comment in the rest of a line, where `skip` characters belong to an
escape and `quote` is the open literal. -/
def lineCommentFrom (style : CommentRules) : Nat → Option Char → List Char → Option Nat
  | _, _, [] => none
  | n + 1, quote, _ :: cs => (lineCommentFrom style n quote cs).map (· + 1)
  | 0, some q, c :: cs =>
    if c == '\\' then (lineCommentFrom style 1 (some q) cs).map (· + 1)
    else (lineCommentFrom style 0 (if c == q then none else some q) cs).map (· + 1)
  | 0, none, c :: cs =>
    if style.isQuote c then (lineCommentFrom style 0 (some c) cs).map (· + 1)
    else if style.opensLineComment (c :: cs) then some 0
    else (lineCommentFrom style 0 none cs).map (· + 1)

/-- The position where a trailing line comment starts; text in quotes starts none. -/
def lineCommentAt? (style : CommentRules) (line : Line) : Option Nat :=
  style.lineCommentFrom 0 none line

/-- The line without its trailing comment and the blanks before it. -/
def cutLineComment (style : CommentRules) (line : Line) : Line :=
  Text.trimEnd (match style.lineCommentAt? line with
    | some n => line.take n
    | none => line)

end CommentRules

end SourceSurvey
