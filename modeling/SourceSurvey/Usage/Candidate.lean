import SourceSurvey.Settings
import SourceSurvey.Workspace.Tree

/-!
# Files that may use a name

The source files below a directory: first those of the directory itself, then those below each of
its directories, both in order of their names. Directories behind links, hidden and ignored
directories are left out, and so is the file whose names are sought.
-/

namespace SourceSurvey.Candidate

/-- The extensions of source files. -/
def extensions : List String :=
  [".py", ".js", ".jsx", ".mjs", ".cjs", ".ts", ".tsx", ".php"]

/-- The name is that of a source file. -/
def isSource (name : String) : Bool :=
  extensions.contains (.ofList (Text.lower (Path.suffixOf name.toList)))

/-- The directory is searched. -/
def isSearched (settings : Settings) (name : String) : Bool :=
  name.toList.head? != some '.' && !settings.ignoredDirs.any (Value.same (.string name))

/-- The source files among the entries of a directory. -/
def filesIn (ws : Workspace) (dir : Path) (entries : List (String × Node)) : List Path :=
  let names := (entries.map (·.1)).filter fun n => !ws.isDir (dir.child n) && isSource n
  (names.mergeSort fun a b => a ≤ b).map dir.child

/-- Entries in order of their names. -/
def sorted (entries : List (String × Node)) : List (String × Node) :=
  entries.mergeSort fun a b => a.1 ≤ b.1

/-- The source files at and below a directory, which is given by its way and its node. The bound is
on the depth. -/
def below (ws : Workspace) (settings : Settings) : Nat → Path → Node → List Path
  | 0, _, _ => []
  | n + 1, dir, node =>
    match node with
    | .dir entries =>
      let inner := (sorted entries).flatMap fun (name, child) =>
        if isSearched settings name then below ws settings n (dir.child name) child else []
      filesIn ws dir entries ++ inner
    | _ => []

/-- How deep directories are nested in a node. -/
def depth : Node → Nat
  | .dir entries => depthIn entries + 1
  | _ => 0
where
  /-- How deep directories are nested in entries. -/
  depthIn : List (String × Node) → Nat
    | [] => 0
    | (_, n) :: rest => max (depth n) (depthIn rest)

/-- Whether so many files are enough. -/
def isEnough (cap : Quantity) (count : Nat) : Bool :=
  cap.le count

/-- The files up to the one with which there are enough, without a certain one. -/
def takeOthers (ws : Workspace) (exclude : Path) (cap : Quantity) (count : Nat) :
    List Path → Except Failure (List Path)
  | [] => .ok []
  | file :: files => do
    if (← ws.resolve file) == exclude then takeOthers ws exclude cap count files
    else if isEnough cap (count + 1) then return [file]
    else return file :: (← takeOthers ws exclude cap (count + 1) files)

/-- The files below a root that may use the names of a file. Both are given past all links. -/
def collect (ws : Workspace) (settings : Settings) (root exclude : Path) :
    Except Failure (List Path) :=
  match ws.look root with
  | .ok (_, node) =>
    takeOthers ws exclude settings.externalUsageMaxFiles 0
      (below ws settings (depth node) root node)
  | .error _ => .ok []

end SourceSurvey.Candidate
