import SourceSurvey.Toml.Document
import SourceSurvey.Value.Json
import SourceSurvey.Yaml.Document

/-!
# Readers of the data formats

The readers that the program runs with. Nothing else speaks of them: what is said of documents holds
for all readers.
-/

namespace SourceSurvey

/-- The readers of this library. -/
def DocumentReaders.standard : DocumentReaders :=
  ⟨Json.parse, Yaml.parse, Toml.parse⟩

end SourceSurvey
