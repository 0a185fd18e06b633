import SourceSurvey.Mention
import SourceSurvey.Usage
import SourceSurvey.Usage.Candidate

/-!
# Uses in other files

Which public names of a file other files mention as whole words.
-/

namespace SourceSurvey

/-- The names that a file mentions, or why it cannot be read. -/
structure FileScan where
  path : Path
  found : Except SystemError (List String)

namespace FileScan

/-- The names among some that a file mentions. -/
def ofFile (ws : Workspace) (names : List String) (path : Path) : FileScan :=
  ⟨path, (ws.readText path).map fun text =>
    names.filter fun n => hasMention n.toList text⟩

/-- The file mentions a name. -/
def mentions (s : FileScan) (name : String) : Bool :=
  match s.found with
  | .ok names => names.contains name
  | .error _ => false

/-- Scans in the order of their files. Files are read side by side, so their scans may finish in any
order. -/
def inOrder (files : List Path) (finished : List FileScan) : List FileScan :=
  files.filterMap fun file => finished.find? fun s => s.path == file

end FileScan

namespace NameUsage

/-- The path from a root to something below it. -/
def relative (root path : Path) : String :=
  Path.toString ⟨"", path.names.drop root.names.length⟩

/-- A use of a name in a file, added to earlier ones. -/
def add (item : PublicName) (file : String) : List NameUsage → List NameUsage
  | [] => [⟨item.name, item.kind.name, [file]⟩]
  | u :: us =>
    if u.name == item.name then
      (if u.usedIn.contains file then u else { u with usedIn := u.usedIn ++ [file] }) :: us
    else u :: add item file us

/-- The uses that a file adds to earlier ones. -/
def addFile (root : Path) (items : List PublicName) (usages : List NameUsage)
    (scan : FileScan) : List NameUsage :=
  (items.filter fun i => scan.mentions i.name).foldl
    (fun us i => add i (relative root scan.path) us) usages

/-- The uses of names in files that have been read, in order of the files and then of the names. -/
def ofScans (root : Path) (items : List PublicName) (scans : List FileScan) :
    List NameUsage :=
  scans.foldl (addFile root items) []

/-- The uses of names in files whose scans finished in some order. -/
def ofFinished (root : Path) (items : List PublicName) (files : List Path)
    (finished : List FileScan) : List NameUsage :=
  ofScans root items (FileScan.inOrder files finished)

/-- The search for uses is switched on. -/
def isEnabled (settings : Settings) : Bool :=
  !settings.externalUsageEnabled.isFalsy && !settings.externalUsageMaxFiles.eq 0

/-- The uses of the public names of a file in the other files of a workspace. -/
def ofSummary (ws : Workspace) (settings : Settings) (file : Path) (s : Summary)
    (workspace : Path) : Except Failure (List NameUsage) := do
  let items := PublicName.ofSummary s
  if !isEnabled settings || items.isEmpty then return []
  else
    let root ← ws.resolve workspace
    let files ← Candidate.collect ws settings root (← ws.resolve file)
    let names := (items.map (·.name)).eraseDups
    return ofFinished root items files (files.map (FileScan.ofFile ws names))

end NameUsage

end SourceSurvey
