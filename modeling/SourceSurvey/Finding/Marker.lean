import SourceSurvey.Pattern.Basic
import SourceSurvey.Text.Lines
import SourceSurvey.Text.Trim

/-!
# Marker comments

Notes that writers leave for later, one per line: the first marker word and the text after it.
-/

namespace SourceSurvey

/-- A note left for later. -/
structure MarkerNote where
  text : String
  kind : String
  line : Nat
deriving Repr, DecidableEq

namespace Marker

open Pattern

/-- The words that mark a note. -/
def words : List String :=
  ["TODO", "FIXME", "HACK", "BUG", "NOTE", "XXX"]

/-- A marker word with the text after it. -/
def marked : Pattern (String × List Char) := do
  wordBoundary
  let word ← oneOf words
  wordBoundary
  let _ ← run (fun c => c == ':' || Text.isSpace c) 0
  let text ← run (· != '\n') 0
  return (word, text)

/-- The kind that a word stands for. -/
def kindOf (word : String) : String :=
  if word == "XXX" then "HACK" else word

/-- A trimmed text without the end of a comment that closes it. -/
def dropCloser (text : List Char) : List Char :=
  match ["*/", "-->"].find? fun closer => Text.endsWith text closer.toList with
  | some closer => text.take (text.length - closer.length)
  | none => text

/-- The marker of a line. -/
def ofLine (number : Nat) (line : Line) : Option MarkerNote :=
  (marked.search? line).map fun f =>
    let (word, rest) := f.value
    let text := Text.trim (dropCloser (Text.trim rest))
    ⟨if text.isEmpty then "(no description)" else .ofList text, kindOf word, number⟩

/-- The markers of a file. -/
def ofLines (lines : List Line) : List MarkerNote :=
  (lines.zipIdx 1).filterMap fun (line, n) => ofLine n line

end Marker

end SourceSurvey
