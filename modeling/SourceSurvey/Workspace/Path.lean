import SourceSurvey.Text.Search

/-!
# Paths

A path is a root, if it is absolute, and the names on the way. Empty names and single dots are
dropped when a path is read; double dots stay.
-/

namespace SourceSurvey

/-- A path in a file system. -/
structure Path where
  /-- The slashes that make a path absolute, or nothing. -/
  root : String
  names : List String
deriving Repr, DecidableEq, Inhabited

namespace Path

/-- The slashes that a path begins with. Exactly two are kept, more are one. -/
def rootOf (text : List Char) : String :=
  match (text.takeWhile (· == '/')).length with
  | 0 => ""
  | 2 => "//"
  | _ => "/"

/-- The path that a text writes. -/
def ofString (text : String) : Path :=
  let chars := text.toList
  ⟨rootOf chars, ((Text.splitAt '/' chars).filter fun n => !n.isEmpty && n != ['.']).map .ofList⟩

/-- The path as a text; an empty one is a dot. -/
def toString (p : Path) : String :=
  let text := p.root ++ "/".intercalate p.names
  if text.isEmpty then "." else text

/-- The path is absolute. -/
def isAbsolute (p : Path) : Bool :=
  !p.root.isEmpty

/-- The last name, or nothing. -/
def name (p : Path) : String :=
  (p.names.getLast?).getD ""

/-- The ending of a name from its last dot on. A dot at either end of the name starts no ending. -/
def suffixOf (name : List Char) : List Char :=
  let tail := (name.reverse.takeWhile (· != '.')).reverse
  let isEnding := 0 < tail.length && tail.length + 1 < name.length
  if isEnding then '.' :: tail else []

/-- The ending of the last name. -/
def suffix (p : Path) : String :=
  .ofList (suffixOf p.name.toList)

/-- The path without its last name; a path without names is its own parent. -/
def parent (p : Path) : Path :=
  { p with names := p.names.dropLast }

/-- The path of a name inside. -/
def child (p : Path) (name : String) : Path :=
  { p with names := p.names ++ [name] }

end Path

end SourceSurvey
