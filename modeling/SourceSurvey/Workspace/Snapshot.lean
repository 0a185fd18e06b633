import SourceSurvey.Number.Reading
import SourceSurvey.Value.Basic
import SourceSurvey.Workspace.Tree

/-!
# Snapshots

A file tree written as a mapping of paths to contents, and changes of a workspace by paths. A text
is the content of a file, a mapping gives raw bytes or the target of a link, and a path that ends
with a slash is that of a directory.
-/

namespace SourceSurvey

/-- The bytes that hexadecimal digits write, two digits each. -/
def bytesOfHex : List Char → List UInt8
  | a :: b :: rest =>
    ((Number.hexDigit? a).getD 0 * 16 + (Number.hexDigit? b).getD 0).toUInt8 :: bytesOfHex rest
  | _ => []

/-- The content that a value of a snapshot describes. -/
def Node.ofValue : Value → Node
  | .string s => .file s.toUTF8.toList
  | .mapping entries =>
    match Value.entry? "link" entries, Value.entry? "hex" entries with
    | some (.string target), _ => .link target
    | _, some (.string digits) => .file (bytesOfHex digits.toList)
    | _, _ => .file []
  | _ => .file []

namespace Workspace

/-- The names that lead to a path itself, past links on the way to it. -/
def wayTo (ws : Workspace) (p : Path) : Except Failure (List String) := do
  return (← ws.resolve p.parent).names ++ p.names.getLast?.toList

/-- The workspace with a node at a path. A file or a directory goes where a link at the path leads
to. -/
def put (ws : Workspace) (p : Path) (node : Node) : Workspace :=
  let way := if node.isLink then ws.wayTo p else (ws.resolve p).map (·.names)
  match way with
  | .ok names => { ws with root := ws.root.insert names node }
  | .error _ => ws

/-- The workspace with a directory at a path. -/
def makeDir (ws : Workspace) (p : Path) : Workspace :=
  if ws.isDir p then ws else ws.put p (.dir [])

/-- The workspace with an entry of a snapshot. -/
def putEntry (ws : Workspace) (path : String) (content : Value) : Workspace :=
  if path.endsWith "/" then ws.makeDir (.ofString path)
  else ws.put (.ofString path) (.ofValue content)

/-- The workspace without what is at a path, if there is something. -/
def remove? (ws : Workspace) (p : Path) : Option Workspace := do
  let names ← (ws.wayTo p).toOption
  if (ws.root.at? names).isSome then some { ws with root := ws.root.erase names } else none

/-- An empty working directory at the end of a way of names. -/
def empty (home : List String) : Workspace :=
  ⟨Node.insert (.dir []) home (.dir []), home⟩

/-- The workspace with the entries of a snapshot in its working directory. -/
def ofSnapshot (home : List String) : Value → Workspace
  | .mapping entries => entries.foldl (fun ws (path, content) =>
      match path with
      | .string p => ws.putEntry p content
      | _ => ws) (empty home)
  | _ => empty home

end Workspace

end SourceSurvey
