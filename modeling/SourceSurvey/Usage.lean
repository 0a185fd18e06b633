import SourceSurvey.Summary.Basic
import SourceSurvey.Text.Search

/-!
# Use of public names

The names of a file that other files may use, and what their use changes in its summary.
-/

namespace SourceSurvey

/-- A name that other files may use. -/
structure PublicName where
  name : String
  kind : PublicKind
deriving Repr, DecidableEq

namespace PublicName

/-- A method of this name may be used from outside. -/
def isPublicMethod (name : String) : Bool :=
  !Text.startsWith name.toList ['_'] && !Text.startsWith name.toList ['#'] &&
    !constructorNames.contains name

/-- The public names of a file: its types, their methods, then its functions. -/
def ofSummary (s : Summary) : List PublicName :=
  s.types.map (fun t => ⟨t.name, .type⟩) ++
    s.types.flatMap (fun t =>
      (t.methods.filter fun m => isPublicMethod m.name).map fun m => ⟨m.name, .method⟩) ++
    (s.routines.filter fun c => !Text.startsWith c.name.toList ['_']).map fun c =>
      ⟨c.name, .function⟩

end PublicName

namespace Summary

/-- The summary with the uses of its public names. What is used elsewhere is not unused. -/
def withUsage (usages : List NameUsage) (s : Summary) : Summary :=
  let used := usages.map (·.name)
  { s with
    nameUsages := usages
    unused := s.unused.filter fun item => !used.contains item.name }

end Summary

end SourceSurvey
