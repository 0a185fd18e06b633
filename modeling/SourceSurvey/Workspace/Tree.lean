import SourceSurvey.Failure
import SourceSurvey.Text.Lines
import SourceSurvey.Text.Utf8
import SourceSurvey.Workspace.Path

/-!
# File trees

A file system as a value: directories with their entries, files with their bytes, and symbolic
links. Looking up a path follows links as far as the system does, at most forty of them.
-/

namespace SourceSurvey

/-- An entry of a file system. -/
inductive Node where
  | file (bytes : List UInt8)
  | link (target : String)
  | dir (entries : List (String × Node))
deriving Inhabited

namespace Node

/-- The entry of a directory with a name. -/
def entry? (name : String) : Node → Option Node
  | .dir entries => entries.lookup name
  | _ => none

/-- The node below a directory, by names that pass no link. -/
def at? : Node → List String → Option Node
  | n, [] => some n
  | n, name :: names => (n.entry? name).bind fun m => m.at? names

/-- The entry is a symbolic link. -/
def isLink : Node → Bool
  | .link _ => true
  | _ => false

/-- An entry set in a list of entries. -/
def setIn (name : String) (node : Node) : List (String × Node) → List (String × Node)
  | [] => [(name, node)]
  | (n, m) :: rest => if n == name then (n, node) :: rest else (n, m) :: setIn name node rest

/-- The tree with a node put at the end of a way of names; directories on the way are made. -/
def insert : Node → List String → Node → Node
  | _, [], node => node
  | old, name :: names, node =>
    let entries := match old with
      | .dir entries => entries
      | _ => []
    .dir (setIn name (insert ((entries.lookup name).getD (.dir [])) names node) entries)

/-- The tree without what is at the end of a way of names. -/
def erase : Node → List String → Node
  | .dir entries, [name] => .dir (entries.filter fun (n, _) => n != name)
  | .dir entries, name :: names =>
    match entries.lookup name with
    | some m => .dir (setIn name (erase m names) entries)
    | none => .dir entries
  | old, _ => old

end Node

/-- A file system with a working directory, given by the names that lead to it. -/
structure Workspace where
  root : Node
  home : List String

namespace Workspace

/-- Why a look-up ends without a node. -/
inductive Refusal where
  | missing | notDirectory | loop | directory
deriving Repr, DecidableEq

/-- The names that lead from the root to where a path starts. -/
def startOf (ws : Workspace) (p : Path) : List String :=
  if p.isAbsolute then [] else ws.home

/-- How many links a look-up follows. -/
def maxLinks : Nat := 40

/-- The node at the end of a way, with the names that lead to it past no link. The way so far passes
no link and ends in a directory. -/
def walk (ws : Workspace) (links : Nat) (here : List String) (rest : List String) :
    Except Refusal (List String × Node) :=
  match rest with
  | [] =>
    match ws.root.at? here with
    | some n => .ok (here, n)
    | none => .error .missing
  | name :: names =>
    match ws.root.at? here with
    | some (.dir entries) =>
      if name == ".." then walk ws links here.dropLast names
      else match entries.lookup name with
        | none => .error .missing
        | some (.link target) =>
          match links with
          | 0 => .error .loop
          | l + 1 =>
            let p := Path.ofString target
            walk ws l (if p.isAbsolute then [] else here) (p.names ++ names)
        | some _ => walk ws links (here ++ [name]) names
    | some _ => .error .notDirectory
    | none => .error .missing
termination_by (links, rest.length)

/-- The node that a path leads to. -/
def look (ws : Workspace) (p : Path) : Except Refusal (List String × Node) :=
  ws.walk maxLinks (ws.startOf p) p.names

/-- The path leads to something. -/
def pathExists (ws : Workspace) (p : Path) : Bool :=
  (ws.look p).toOption.isSome

/-- The path leads to a directory. -/
def isDir (ws : Workspace) (p : Path) : Bool :=
  match ws.look p with
  | .ok (_, .dir _) => true
  | _ => false

/-- The path leads to a file. -/
def isFile (ws : Workspace) (p : Path) : Bool :=
  match ws.look p with
  | .ok (_, .file _) => true
  | _ => false

/-- The entries of the directory that a path leads to. -/
def entries (ws : Workspace) (p : Path) : Except Refusal (List (String × Node)) :=
  match ws.look p with
  | .ok (_, .dir entries) => .ok entries
  | .ok _ => .error .notDirectory
  | .error e => .error e

/-- The refusal as the system words it for a path. -/
def systemError (p : Path) : Refusal → SystemError
  | .missing => .noSuchFile p.toString
  | .notDirectory => .notADirectory p.toString
  | .loop => .tooManyLinks p.toString
  | .directory => .isADirectory p.toString

/-- The bytes of the file that a path leads to. -/
def readBytes (ws : Workspace) (p : Path) : Except SystemError (List UInt8) :=
  match ws.look p with
  | .ok (_, .file bytes) => .ok bytes
  | .ok _ => .error (systemError p .directory)
  | .error e => .error (systemError p e)

/-- The text of a file with one line feed for every line end. What is no text is replaced. -/
def readText (ws : Workspace) (p : Path) : Except SystemError (List Char) :=
  (ws.readBytes p).map fun bytes => Text.unifyLineEnds (Text.decodeReplacing bytes)

/-- The text of a file with one line feed for every line end, if all of it is text. -/
def readStrict (ws : Workspace) (p : Path) : Except SystemError (Option (List Char)) :=
  (ws.readBytes p).map fun bytes => (Text.decodeStrict? bytes).map Text.unifyLineEnds

/-- How many links are resolved before they count as a circle. -/
def maxResolved : Nat := 5000

/-- The names that lead to the end of a way past no link, as far as the way exists; names that do
not exist are kept. Nothing if links go round in a circle. -/
def realNames (ws : Workspace) (links : Nat) (here : List String) (rest : List String) :
    Option (List String) :=
  match rest with
  | [] => some here
  | name :: names =>
    if name == ".." then realNames ws links here.dropLast names
    else match ws.root.at? (here ++ [name]) with
      | some (.link target) =>
        match links with
        | 0 => none
        | l + 1 =>
          let p := Path.ofString target
          realNames ws l (if p.isAbsolute then [] else here) (p.names ++ names)
      | _ => realNames ws links (here ++ [name]) names
termination_by (links, rest.length)

/-- The absolute path past all links. Links that go round in a circle are a fault. -/
def resolve (ws : Workspace) (p : Path) : Except Failure Path :=
  match ws.realNames maxResolved (ws.startOf p) p.names with
  | some names => .ok ⟨"/", names⟩
  | none => .error (.fault .linkCircle)

end Workspace

end SourceSurvey
