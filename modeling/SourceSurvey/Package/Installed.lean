import SourceSurvey.Package.External
import SourceSurvey.Workspace.Tree

/-!
# Installed packages

The packages in the directories into which package systems install. The names are in no order and
one may come more than once.
-/

namespace SourceSurvey.Package

/-- The names in a directory; none if it is no directory. -/
def namesIn (ws : Workspace) (dir : Path) : List String :=
  match ws.entries dir with
  | .ok entries => entries.map (·.1)
  | .error _ => []

/-- The name begins with a character. -/
def beginsWith (c : Char) (name : String) : Bool :=
  name.toList.head? == some c

/-- The packages in a directory of Node modules. Those of a scope are in a directory of their own.
-/
def installedScripts (ws : Workspace) (dir : Path) : List String :=
  let modules := dir.child "node_modules"
  ((namesIn ws modules).filter fun n => !beginsWith '.' n).flatMap fun n =>
    if beginsWith '@' n && ws.isDir (modules.child n) then
      (namesIn ws (modules.child n)).map fun m => n ++ "/" ++ m
    else [n]

/-- The packages in a directory of Composer packages, each in the directory of its vendor. -/
def installedComposer (ws : Workspace) (dir : Path) : List String :=
  let root := dir.child "vendor"
  let vendors := (namesIn ws root).filter fun n =>
    ws.isDir (root.child n) && n != "bin" && n != "composer"
  vendors.flatMap fun n =>
    let vendor := root.child n
    ((namesIn ws vendor).filter fun m => ws.isDir (vendor.child m)).map fun m => n ++ "/" ++ m

/-- The places for packages below the directory of an environment. -/
def sitesOf (ws : Workspace) (root : Path) : List Path :=
  let lib := root.child "lib"
  let versions := (namesIn ws lib).filter fun n =>
    Text.startsWith n.toList "python".toList && ws.isDir (lib.child n)
  let sites := versions.map (fun n => (lib.child n).child "site-packages") ++
    [(root.child "Lib").child "site-packages"]
  sites.filter ws.pathExists

/-- The package that an entry of a place for packages stands for: the name before the version of its
metadata, or that of a directory. -/
def packageOf? (ws : Workspace) (site : Path) (name : String) : Option String :=
  let chars := name.toList
  if Text.endsWith chars ".dist-info".toList || Text.endsWith chars ".egg-info".toList then
    some (.ofList (Text.beforeFirst '-' chars))
  else if ws.isDir (site.child name) && !beginsWith '_' name && !beginsWith '.' name then some name
  else none

/-- The packages in the environments of a directory. If a place for packages is no directory, none
of them count. -/
def installedPython (ws : Workspace) (dir : Path) : List String :=
  let roots := ([".venv", "venv", "env"].map dir.child).filter ws.isDir
  let sites := roots.flatMap (sitesOf ws)
  if sites.all ws.isDir then
    sites.flatMap fun site => (namesIn ws site).filterMap (packageOf? ws site)
  else []

/-- The packages of a system that are installed in a directory. -/
def installed (ws : Workspace) (dir : Path) : Ecosystem → List String
  | .python => installedPython ws dir
  | .javascript => installedScripts ws dir
  | .php => installedComposer ws dir
  | .other => []

end SourceSurvey.Package
