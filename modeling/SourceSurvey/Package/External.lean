import SourceSurvey.Package.Standard
import SourceSurvey.Summary.Declaration
import SourceSurvey.Text.LetterCase
import SourceSurvey.Text.Search
import SourceSurvey.Text.Trim

/-!
# External packages

The package systems, and the packages that the imports of a file refer to. Modules of the language
itself, files and parts of the application are no packages.
-/

namespace SourceSurvey

/-- A system of packages. -/
inductive Ecosystem where
  | python | javascript | php
  /-- A system that has no known packages. -/
  | other
deriving Repr, DecidableEq, Inhabited

namespace Ecosystem

/-- The word for a system. -/
def name : Ecosystem → String
  | .python => "python"
  | .javascript => "javascript"
  | .php => "php"
  | .other => "other"

/-- The system that a word stands for. -/
def ofName (name : String) : Ecosystem :=
  match name with
  | "python" => .python
  | "javascript" => .javascript
  | "php" => .php
  | _ => .other

/-- The system that files of a language tag take their packages from. -/
def ofTag? (tag : String) : Option Ecosystem :=
  match tag with
  | "python" => some .python
  | "javascript" | "typescript" | "javascriptreact" | "typescriptreact" => some .javascript
  | "php" => some .php
  | _ => none

/-- The command that installs a package. -/
def installCommand : Ecosystem → String
  | .python => "pip install"
  | .javascript => "npm install"
  | .php => "composer require"
  | .other => ""

end Ecosystem

/-- An external package that an import refers to. -/
structure Dependency where
  /-- The name of the package. -/
  name : String
  /-- What the code imports. -/
  importName : String
  line : Nat
deriving Repr, DecidableEq, Inhabited

namespace Dependency

/-- The Python package of a module: that of its outermost part. -/
def ofPython? (module : List Char) (line : Nat) : Option Dependency :=
  let root := String.ofList (Text.beforeFirst '.' module)
  if Package.pythonStandard.contains root then none
  else some ⟨(Package.pythonDistribution.lookup root).getD root, root, line⟩

/-- The module is an address, a file or an alias of the application. -/
def isLocalScript (module : List Char) : Bool :=
  ["node:", "#", "~", "@/"].any (fun s => Text.startsWith module s.toList) ||
    Text.contains module "://".toList

/-- The Node package of a module: its first part, or the first two for a scoped one. -/
def ofScript? (module : List Char) (line : Nat) : Option Dependency :=
  if isLocalScript module then none
  else
    let parts := Text.splitAt '/' module
    let name := String.ofList <|
      if Text.startsWith module ['@'] && 1 < parts.length then
        Text.join ['/'] (parts.take 2)
      else (parts.head?).getD []
    if Package.nodeBuiltin.contains name then none else some ⟨name, name, line⟩

/-- The Composer package of a namespace: its first two parts in lower case. Included files are no
packages. -/
def ofNamespace? (module : List Char) (isFrom : Bool) (line : Nat) : Option Dependency :=
  if !isFrom then none
  else
    match (Text.splitAt '\\' module).filter (!·.isEmpty) with
    | vendor :: package :: _ =>
      if Package.phpInternal.contains (String.ofList vendor) then none
      else some ⟨.ofList (Text.lower (vendor ++ '/' :: package)), .ofList module, line⟩
    | _ => none

/-- The package that an import refers to, if it is an external one. -/
def ofImport? (ecosystem : Ecosystem) (i : ImportStatement) : Option Dependency :=
  let module := Text.trim i.module.toList
  if module.isEmpty || Text.startsWith module ['.'] || Text.startsWith module ['/'] then none
  else match ecosystem with
    | .python => ofPython? module i.line
    | .javascript => ofScript? module i.line
    | .php => ofNamespace? module i.isFrom i.line
    | .other => none

/-- The dependencies without those whose name an earlier one has. -/
def firstOfName (seen : List String) : List Dependency → List Dependency
  | [] => []
  | d :: ds =>
    if seen.contains d.name then firstOfName seen ds
    else d :: firstOfName (d.name :: seen) ds

/-- The external packages that imports refer to, each where it occurs first. -/
def ofImports (ecosystem : Ecosystem) (imports : List ImportStatement) : List Dependency :=
  firstOfName [] (imports.filterMap (ofImport? ecosystem))

end Dependency

end SourceSurvey
