import SourceSurvey.Package.Installed
import SourceSurvey.Package.Manifest
import SourceSurvey.Settings
import SourceSurvey.Summary.Basic
import SourceSurvey.Value.Json

/-!
# Status of dependencies

Whether the packages that a file imports are installed: by the packages known near the file, and by
asking the tools of the package system about those that are not known. Known are the packages that are
declared or installed at the nearest directory that has any.
-/

namespace SourceSurvey

/-! ## Known packages -/

namespace Package

/-- The canonical name of a declared package, which has to be a text. -/
def canonicalOf : Value → Except Fault String
  | .string s => .ok (canonicalName s)
  | _ => .error .wrongKind

/-- The canonical names of the packages that are declared or installed in a directory. -/
def knownIn (readers : DocumentReaders) (ws : Workspace) (dir : Path) (ecosystem : Ecosystem) :
    Except Fault (List String) := do
  let manifests ← Manifest.ofDirectory readers ws dir ecosystem
  let declared ← (manifests.flatMap (·.dependencies)).mapM canonicalOf
  return (declared ++ (installed ws dir ecosystem).map canonicalName).eraseDups

/-- A directory and those above it, the root last. -/
def upward (dir : Path) : List Path :=
  (List.range (dir.names.length + 1)).map fun n =>
    { dir with names := dir.names.take (dir.names.length - n) }

/-- The names known in the first of some directories that knows any. -/
def firstKnown (readers : DocumentReaders) (ws : Workspace) (ecosystem : Ecosystem) :
    List Path → Except Fault (Option (List String))
  | [] => .ok none
  | dir :: dirs => do
    match ← knownIn readers ws dir ecosystem with
    | [] => firstKnown readers ws ecosystem dirs
    | names => return some names

/-- How many directories a search goes through; a number with a fraction is refused. -/
def searchCount : Quantity → Except Fault Nat
  | .truth b => .ok (Quantity.ofTruth b).toNat
  | .whole n => .ok n.toNat
  | .real _ => .error .wrongKind

/-- The names known in the nearest of so many directories that knows any, from a directory upward.
-/
def known (readers : DocumentReaders) (ws : Workspace) (dir : Path) (ecosystem : Ecosystem)
    (depth : Quantity) : Except Fault (Option (List String)) := do
  firstKnown readers ws ecosystem ((upward dir).take (← searchCount depth))

end Package

/-! ## Status -/

/-- A command that asks a tool about a package. -/
structure Command where
  words : List String
  dir : Path
  /-- Seconds after which the command is given up. -/
  timeout : Quantity
deriving Repr

/-- How a command ends. -/
inductive Outcome where
  | exited (code : Int)
  | timedOut
  | notStarted
  /-- The call itself fails, as it does for an argument with a zero character and for output that is
  no text. -/
  | broken (fault : Fault)
deriving Repr, DecidableEq

/-- The tools of a machine, by how commands end. -/
abbrev Toolchain := Command → Outcome

namespace Dependency

/-- A name is among the known ones. For Composer the vendor is enough, because namespaces rarely
spell the name of a package. -/
def isKnown (d : Dependency) (ecosystem : Ecosystem) (known : List String) : Bool :=
  let vendor := Text.beforeFirst '/' d.name.toList ++ ['/']
  known.contains (Package.canonicalName d.name) ||
    known.contains (Package.canonicalName d.importName) ||
    (ecosystem == .php && known.any fun k => Text.startsWith k.toList vendor)

/-- The tool of a package system. -/
def tool (settings : Settings) : Ecosystem → Value
  | .python => settings.pythonExecutable
  | .javascript => settings.nodeExecutable
  | _ => settings.composerExecutable

/-- What the tool of a package system is asked about a package. -/
def question (d : Dependency) : Ecosystem → List String
  | .python => ["-c", "import " ++ d.importName]
  | .javascript => ["-e", "require.resolve(" ++ Json.quote d.name ++ ")"]
  | _ => ["show", d.name]

/-- The name of a tool, which is given by a text or by the bytes of one. -/
def toolName? : Value → Option String
  | .string name => some name
  | .bytes octets => some (.ofList (Text.decodeReplacing octets))
  | _ => none

/-- The command that asks about a package. The tool has to have a name. -/
def command (d : Dependency) (ecosystem : Ecosystem) (settings : Settings) (dir : Path) :
    Except Fault Command :=
  match toolName? (tool settings ecosystem) with
  | some name => .ok ⟨name :: d.question ecosystem, dir, settings.verificationTimeout⟩
  | none => .error .wrongKind

/-- The status by the packages that are known; without any it is unknown. -/
def knownStatus (d : Dependency) (ecosystem : Ecosystem) : Option (List String) → InstallStatus
  | some known => if d.isKnown ecosystem known then .installed else .missing
  | none => .unknown

/-- The status of a package by how the command about it ends: only one that exits well shows that
the package is installed. -/
def statusOf : Outcome → Except Fault InstallStatus
  | .exited code => .ok (if code == 0 then .installed else .missing)
  | .timedOut | .notStarted => .ok .missing
  | .broken fault => .error fault

/-- The status of a package, and the command that was needed to find it. -/
def status (d : Dependency) (ecosystem : Ecosystem) (settings : Settings) (dir : Path)
    (tools : Toolchain) (known : Option (List String)) :
    Except Fault (InstallStatus × Option Command) := do
  let first := d.knownStatus ecosystem known
  if first == .installed || settings.verifyDependencies.isFalsy then return (first, none)
  else
    let c ← d.command ecosystem settings dir
    return (← statusOf (tools c), some c)

/-- What is said about a package of a status. Only for a missing one it is said how to install it.
-/
def issue (d : Dependency) (ecosystem : Ecosystem) (s : InstallStatus) : DependencyStatus where
  name := d.name
  status := s
  line := d.line
  installHint :=
    if s == .missing then some (ecosystem.installCommand ++ " " ++ d.name) else none

/-- The status of the packages that a file imports, and the commands that were run. -/
def check (readers : DocumentReaders) (ws : Workspace) (settings : Settings) (tools : Toolchain)
    (imports : List ImportStatement) (file : Path) (tag : String) :
    Except Failure (List DependencyStatus × List Command) := do
  match Ecosystem.ofTag? tag with
  | none => return ([], [])
  | some ecosystem =>
    match ofImports ecosystem imports with
    | [] => return ([], [])
    | dependencies =>
      let dir := (← ws.resolve file).parent
      let known ← (Package.known readers ws dir ecosystem
        settings.manifestSearchDepth).mapError .fault
      let found ← dependencies.mapM fun d => do
        let (s, c) ← (d.status ecosystem settings dir tools known).mapError Failure.fault
        return (d.issue ecosystem s, c)
      return (found.map (·.1), found.filterMap (·.2))

end Dependency

end SourceSurvey
