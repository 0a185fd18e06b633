import SourceSurvey.Failure

/-!
# Tokens

The words of a YAML text: marks of structure, properties and scalars.
-/

namespace SourceSurvey.Yaml

/-- A word of a YAML text. -/
inductive Token where
  /-- The version that a document claims. -/
  | version (major : Nat)
  /-- A short form for the start of tags. -/
  | tagHandle (handle tagStart : String)
  /-- A directive that means nothing. -/
  | ignoredDirective
  | documentStart
  | documentEnd
  | sequenceStart
  | mappingStart
  | blockEnd
  | flowSequenceStart
  | flowSequenceEnd
  | flowMappingStart
  | flowMappingEnd
  | flowEntry
  | blockEntry
  | key
  | value
  | alias (name : String)
  | anchor (name : String)
  | tag (handle : Option String) (suffix : String)
  | scalar (text : List Char) (isPlain : Bool)
  | streamEnd
  /-- The text cannot be read on from here. -/
  | trouble (problem : DocumentProblem)
deriving Repr, DecidableEq, Inhabited

end SourceSurvey.Yaml
