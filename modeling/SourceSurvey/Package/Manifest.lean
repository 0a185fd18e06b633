import SourceSurvey.Package.External
import SourceSurvey.Package.Name
import SourceSurvey.Text.Lines
import SourceSurvey.Value.Literal
import SourceSurvey.Workspace.Tree

/-!
# Manifests

The packages that a manifest declares. A manifest that cannot be read counts as none; a well-formed
one of an unexpected shape is a fault.
-/

namespace SourceSurvey

/-- The packages that a file declares. The names are texts unless the file declares something
else. -/
structure Manifest where
  path : String
  ecosystem : Ecosystem
  dependencies : List Value
deriving Repr, Inhabited

namespace Manifest

/-! ## Parts of documents -/

/-- The value of an entry of a mapping, or a default. Only a mapping has entries. -/
def entryOr (default : Value) (key : String) : Value → Except Fault Value
  | .mapping entries => .ok ((Value.entry? key entries).getD default)
  | _ => .error .unsupported

/-- The value of an entry, or an empty mapping. -/
def sectionOf (key : String) (v : Value) : Except Fault Value :=
  entryOr (.mapping []) key v

/-- The values of the entries of a mapping. -/
def values : Value → Except Fault (List Value)
  | .mapping entries => .ok (entries.map (·.2))
  | _ => .error .unsupported

/-- The members of what has some. -/
def members (v : Value) : Except Fault (List Value) :=
  match v.members? with
  | some items => .ok items
  | none => .error .wrongKind

/-- The name in a requirement that is a text. -/
def nameOf? : Value → Option Value
  | .string s => (Package.nameOfRequirement? s.toList).map fun n => .string (.ofList n)
  | _ => none

/-! ## Kinds of manifests -/

/-- The packages of a list of requirements, one on a line. -/
def ofRequirements (text : List Char) : List Value :=
  (Text.splitAtBoundaries text).filterMap fun line => nameOf? (.string (.ofList line))

/-- The name is not that of the language itself, as it is known in lower case. Bytes have a lower
case too and are no name. -/
def isPackageName : Value → Except Fault Bool
  | .string s => .ok (String.ofList (Text.lower s.toList) != "python")
  | .bytes _ => .ok true
  | _ => .error .unsupported

/-- The packages of a project table: requirements of the project and its extras, then the names in
the tables of a tool for packages. -/
def ofProject (document : Value) : Except Fault (List Value) := do
  let project ← sectionOf "project" document
  let required ← members (← entryOr (.list []) "dependencies" project)
  let extras ← (← values (← sectionOf "optional-dependencies" project)).mapM members
  let tool ← sectionOf "poetry" (← sectionOf "tool" document)
  let main ← (← members (← sectionOf "dependencies" tool)).filterM isPackageName
  let development ← members (← sectionOf "dev-dependencies" tool)
  let groups ← (← values (← sectionOf "group" tool)).mapM fun group => do
    members (← sectionOf "dependencies" group)
  return (required ++ extras.flatten).filterMap nameOf? ++ main ++ development ++ groups.flatten

/-- The packages of an entry of an environment: that of a requirement, or those below it. -/
def ofEnvironmentEntry : Value → Except Fault (List Value)
  | .string s =>
    .ok ((nameOf? (.string s)).filter fun n => !Value.same n (.string "python")).toList
  | .mapping entries => do
    let specs ← members ((Value.entry? "pip" entries).getD (.list []))
    let texts ← specs.mapM Value.written
    return texts.filterMap fun text => nameOf? (.string (.ofList text))
  | _ => .ok []

/-- The packages of an environment. -/
def ofEnvironment (document : Value) : Except Fault (List Value) :=
  match document with
  | .mapping entries => do
    let all ← members ((Value.entry? "dependencies" entries).getD (.list []))
    return (← all.mapM ofEnvironmentEntry).flatten
  | _ => .ok []

/-- The keys of those entries of a mapping that are mappings themselves. -/
def sectionKeys (sections : List String) (document : Value) : Except Fault (List Value) := do
  let found ← sections.mapM fun key => sectionOf key document
  return found.flatMap fun v =>
    match v with
    | .mapping entries => entries.map (·.1)
    | _ => []

/-- The packages of a script project. -/
def ofScriptProject (document : Value) : Except Fault (List Value) :=
  sectionKeys ["dependencies", "devDependencies", "peerDependencies", "optionalDependencies"]
    document

/-- The name is not that of a part of the platform. What a name begins with is asked of texts. -/
def isNoPlatform : Value → Except Fault Bool
  | .string s => .ok (s != "php" && !Text.startsWith s.toList "ext-".toList)
  | .bytes _ => .error .wrongKind
  | _ => .error .unsupported

/-- The packages of a Composer project. -/
def ofComposerProject (document : Value) : Except Fault (List Value) := do
  (← sectionKeys ["require", "require-dev"] document).filterM isNoPlatform

/-! ## Files -/

/-- A kind of manifest. -/
inductive Kind where
  | requirements | project | environment | script | composer
deriving Repr, DecidableEq

namespace Kind

/-- The names of files with the kind of each, in the order in which they are looked for. -/
def ofNames : List (String × Kind) :=
  [("package.json", .script), ("composer.json", .composer), ("pyproject.toml", .project),
    ("environment.yml", .environment), ("environment.yaml", .environment)]

/-- The name is that of a list of requirements. -/
def isRequirements (name : String) : Bool :=
  Text.startsWith name.toList "requirements".toList && Text.endsWith name.toList ".txt".toList

/-- The kind of a manifest by its name. -/
def ofName? (name : String) : Option Kind :=
  if isRequirements name then some .requirements else ofNames.lookup name

/-- The package system of a kind. -/
def ecosystem : Kind → Ecosystem
  | .script => .javascript
  | .composer => .php
  | _ => .python

/-- The document that a text of a kind writes. -/
def document (readers : DocumentReaders) (kind : Kind) (text : List Char) :
    Except DocumentProblem Value :=
  match kind with
  | .requirements => .ok (.string (.ofList text))
  | .project => readers.toml text
  | .environment => readers.yaml text
  | .script | .composer => readers.json text

/-- The packages of a document of a kind. -/
def packages (kind : Kind) (document : Value) : Except Fault (List Value) :=
  match kind with
  | .requirements => .ok (ofRequirements document.text)
  | .project => ofProject document
  | .environment => ofEnvironment document
  | .script => ofScriptProject document
  | .composer => ofComposerProject document

/-- The packages that a text of a kind declares, or nothing if it is malformed. -/
def read (readers : DocumentReaders) (kind : Kind) (text : List Char) :
    Except Fault (Option (List Value)) :=
  match kind.document readers text with
  | .error .malformed => .ok none
  | .error (.fault f) => .error f
  | .ok v => (kind.packages v).map some

end Kind

/-- The manifest at a path, or nothing if there is none that can be read. -/
def load (readers : DocumentReaders) (ws : Workspace) (path : Path) :
    Except Fault (Option Manifest) :=
  match Kind.ofName? path.name, ws.readStrict path with
  | some kind, .ok (some text) => do
    match ← kind.read readers text with
    | some found => return some ⟨path.toString, kind.ecosystem, found⟩
    | none => return none
  | _, _ => .ok none

/-- The lists of requirements in a directory, in order of their names. -/
def requirementFiles (ws : Workspace) (dir : Path) : List Path :=
  match ws.entries dir with
  | .ok entries =>
    let names := (entries.map (·.1)).filter Kind.isRequirements
    (names.mergeSort fun a b => a ≤ b).map dir.child
  | .error _ => []

/-- The files of a directory that may be manifests of a package system. -/
def candidates (ws : Workspace) (dir : Path) (ecosystem : Ecosystem) : List Path :=
  let named := (Kind.ofNames.filter fun (_, kind) => kind.ecosystem == ecosystem).map fun (n, _) =>
    dir.child n
  let listed := if ecosystem == .python then requirementFiles ws dir else []
  (named ++ listed).filter ws.isFile

/-- The manifests of a package system in a directory. -/
def ofDirectory (readers : DocumentReaders) (ws : Workspace) (dir : Path)
    (ecosystem : Ecosystem) : Except Fault (List Manifest) := do
  return (← (candidates ws dir ecosystem).mapM (load readers ws)).filterMap id

end Manifest

end SourceSurvey
