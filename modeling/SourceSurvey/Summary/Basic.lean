import SourceSurvey.MetaBlock
import SourceSurvey.Finding.Hardcoded
import SourceSurvey.Finding.Marker
import SourceSurvey.Finding.Unused
import SourceSurvey.Summary.Declaration

/-!
# Summaries

What is known about one file: its declarations, its findings, the status of its dependencies and
the files that use it.
-/

namespace SourceSurvey

/-- What is known about the installation of a package. -/
inductive InstallStatus where
  | installed | missing | unknown
deriving Repr, DecidableEq

/-- The word for a status. -/
def InstallStatus.name : InstallStatus → String
  | .installed => "installed"
  | .missing => "missing"
  | .unknown => "unknown"

/-- The status of one external dependency. -/
structure DependencyStatus where
  name : String
  status : InstallStatus
  line : Nat
  installHint : Option String
deriving Repr, DecidableEq

/-- What kind of name other files may use. -/
inductive PublicKind where
  | type | method | function
deriving Repr, DecidableEq

/-- The word for a kind. -/
def PublicKind.name : PublicKind → String
  | .type => "class"
  | .method => "method"
  | .function => "function"

/-- A public name and the files that mention it. The kind is a word. -/
structure NameUsage where
  name : String
  kind : String
  usedIn : List String
deriving Repr, DecidableEq

/-- Everything known about one file. -/
structure Summary where
  fileName : String
  language : String
  block : Option MetaBlock
  types : List TypeDeclaration
  routines : List Routine
  imports : List ImportStatement
  globals : List Slot
  connections : List String
  errorNames : List String
  riskPoints : List Nat
  totalLines : Nat
  codeLines : Nat
  warnings : List String
  description : String
  typeDescriptions : List (String × String)
  hardcoded : List HardcodedLiteral
  unused : List UnusedName
  dependencyStatuses : List DependencyStatus
  markers : List MarkerNote
  nameUsages : List NameUsage
deriving Repr, DecidableEq

namespace Summary

/-- The functions of a file, then the methods of its types. -/
def allRoutines (s : Summary) : List Routine :=
  s.routines ++ s.types.flatMap (·.methods)

end Summary

end SourceSurvey
