import SourceSurvey.Settings
import SourceSurvey.Workspace.Tree

/-!
# Configuration files

Settings read from a file, and the configuration file that is nearest to a place.
-/

namespace SourceSurvey.Settings

/-- A format of configuration files. -/
inductive Format where
  | yaml | toml
deriving Repr, DecidableEq

/-- The format that a file extension stands for, in any letter case. -/
def Format.ofSuffix? (suffix : String) : Option Format :=
  match String.ofList (Text.lower suffix.toList) with
  | ".yml" | ".yaml" => some .yaml
  | ".toml" => some .toml
  | _ => none

/-- The table for this program in a document that may hold settings of many programs, or else the
whole document. -/
def ownTable (document : Value) : Except Fault Value :=
  match document with
  | .mapping entries =>
    match Value.entry? "tool" entries with
    | none => .ok document
    | some (.mapping tools) => .ok ((Value.entry? "codestats" tools).getD document)
    | some _ => .error .unsupported
  | _ => .error .unsupported

/-- What a configuration text holds. A YAML text that holds nothing counts as an empty mapping. -/
def Format.read (readers : DocumentReaders) (format : Format) (text : List Char) :
    Except DocumentProblem Value := do
  match format with
  | .yaml =>
    let v ← readers.yaml text
    return if v.isFalsy then .mapping [] else v
  | .toml => (ownTable (← readers.toml text)).mapError .fault

/-- A problem of the document of a file. -/
def documentFailure (path : Path) : DocumentProblem → Failure
  | .malformed => .config (.malformed path.toString)
  | .fault f => .fault f

/-- The settings in the configuration file at a path, as the environment changes them. -/
def load (readers : DocumentReaders) (ws : Workspace) (env : Environment) (path : Path) :
    Except Failure Settings := do
  if !ws.pathExists path then .error (.config (.notFound path.toString))
  else
    let content ← (ws.readStrict path).mapError fun e => .config (.unreadable path.toString e)
    match content, Format.ofSuffix? path.suffix with
    | none, _ => .error (.fault .undecodable)
    | some _, none => .error (.config (.unsupportedFormat path.name))
    | some text, some format =>
      match ← (format.read readers text).mapError (documentFailure path) with
      | .mapping entries => (ofMapping entries).map (override env)
      | _ => .error (.config (.notAMapping path.toString))

/-- The names of configuration files, the preferred one first. -/
def fileNames : List String :=
  [".codestats.yml", ".codestats.yaml", "codestats.toml"]

/-- How many directories are searched upward for a configuration file. -/
def searchDepth : Nat := 10

/-- The first configuration file in one of so many directories, from a directory upward. -/
def nearestFrom? (ws : Workspace) (dir : Path) : Nat → Option Path
  | 0 => none
  | n + 1 =>
    match (fileNames.map dir.child).find? ws.isFile with
    | some found => some found
    | none => if dir.parent == dir then none else nearestFrom? ws dir.parent n

/-- The nearest configuration file of a place: from a directory itself upward, from the directory of
anything else. -/
def nearest? (ws : Workspace) (place : Path) (depth : Nat) : Option Path :=
  nearestFrom? ws (if ws.isDir place then place else place.parent) depth

end SourceSurvey.Settings
