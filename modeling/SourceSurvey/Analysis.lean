import SourceSurvey.Package.Status
import SourceSurvey.Summary.OfText
import SourceSurvey.Usage.Scan

/-!
# Analysis of a file

The summary of a file in a workspace, with the status of its dependencies and the uses of its names.
-/

namespace SourceSurvey

/-- What is asked about a file. -/
structure Request where
  path : Path
  /-- The language tag; without one the file extension decides. -/
  tag : Option String := none
  /-- The directory in which uses are sought. -/
  workspace : Option Path := none
  checksDependencies : Bool := true

namespace Request

/-- The language tag by which the file is read. -/
def language (r : Request) : String :=
  r.tag.getD ((Language.ofExtension? r.path.suffix).getD Language.fallback)

/-- The text of the file. -/
def source (ws : Workspace) (path : Path) : Except Failure (List Char) :=
  (ws.readText path).mapError fun e =>
    match e with
    | .noSuchFile _ => .analysis (.notFound path.toString)
    | other => .analysis (.unreadable path.toString other)

/-- The summary of the file's text alone. -/
def summary (r : Request) (ws : Workspace) : Except Failure Summary := do
  Summary.ofText (← source ws r.path) r.path.name r.language

/-- The full summary of the file, and the commands that were run. -/
def answer (r : Request) (readers : DocumentReaders) (ws : Workspace) (settings : Settings)
    (tools : Toolchain) : Except Failure (Summary × List Command) := do
  let parsed ← r.summary ws
  let (issues, commands) ←
    if r.checksDependencies then
      Dependency.check readers ws settings tools parsed.imports r.path r.language
    else pure ([], [])
  let checked := { parsed with dependencyStatuses := issues }
  match r.workspace with
  | none => return (checked, commands)
  | some dir =>
    let usages ← NameUsage.ofSummary ws settings r.path checked dir
    return (checked.withUsage usages, commands)

end Request

end SourceSurvey
