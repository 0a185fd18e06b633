import SourceSurvey.Text.Quoted

/-!
# Failures

Everything that can keep an operation from answering, by cause, and the wording of those that a
user reads.
-/

namespace SourceSurvey

/-- Why the file system refuses an operation on a path. -/
inductive SystemError where
  | noSuchFile (path : String)
  | notADirectory (path : String)
  | isADirectory (path : String)
  | tooManyLinks (path : String)
  | nameTooLong (path : String)
deriving Repr, DecidableEq

/-- The wording of a refusal: its number, its reason and the path. -/
def SystemError.message : SystemError → String
  | .noSuchFile path => "[Errno 2] No such file or directory: " ++ Text.quotedText path
  | .notADirectory path => "[Errno 20] Not a directory: " ++ Text.quotedText path
  | .isADirectory path => "[Errno 21] Is a directory: " ++ Text.quotedText path
  | .tooManyLinks path => "[Errno 40] Too many levels of symbolic links: " ++ Text.quotedText path
  | .nameTooLong path => "[Errno 36] File name too long: " ++ Text.quotedText path

/-- What is wrong with a configuration. -/
inductive ConfigProblem where
  | notFound (path : String)
  | unreadable (path : String) (reason : SystemError)
  | unsupportedFormat (name : String)
  | malformed (path : String)
  | notAMapping (path : String)
  | unknownKeys (keys : List String)
  /-- A setting has a value of a kind that it cannot have. -/
  | invalid
  | searchTooShallow
  | timeoutNotPositive
  | negativeFileCap
  | noWorkers
deriving Repr, DecidableEq

/-- The wording of a configuration problem. -/
def ConfigProblem.message : ConfigProblem → String
  | .notFound path => "Configuration file not found: " ++ path
  | .unreadable path reason => "Cannot read configuration file " ++ path ++ ": " ++ reason.message
  | .unsupportedFormat name => "Unsupported configuration format: " ++ name
  | .malformed path => "Failed to parse " ++ path
  | .notAMapping path => "Configuration in " ++ path ++ " must be a mapping"
  | .unknownKeys keys => "Unknown configuration keys: " ++ ", ".intercalate keys
  | .invalid => "Invalid configuration"
  | .searchTooShallow => "manifest_search_depth must be at least 1"
  | .timeoutNotPositive => "verification_timeout must be positive"
  | .negativeFileCap => "external_usage_max_files cannot be negative"
  | .noWorkers => "external_usage_workers must be at least 1"

/-- What is wrong with a file to be analysed. -/
inductive AnalysisProblem where
  | notFound (path : String)
  | unreadable (path : String) (reason : SystemError)
deriving Repr, DecidableEq

/-- The wording of an analysis problem. -/
def AnalysisProblem.message : AnalysisProblem → String
  | .notFound path => "File not found: " ++ path
  | .unreadable path reason => "Cannot read " ++ path ++ ": " ++ reason.message

/-- A value that an operation cannot go on with. -/
inductive Fault where
  /-- A list has no member at a position. -/
  | missingMember
  /-- A value is of a kind that the operation is not defined for. -/
  | wrongKind
  /-- A value lacks the operation asked of it. -/
  | unsupported
  /-- A value is of the right kind but has no meaning. -/
  | meaningless
  /-- A number is beyond the machine's range. -/
  | tooLarge
  /-- A table has no entry for a word. -/
  | missingEntry
  /-- Bytes are no text. -/
  | undecodable
  /-- A file to be deleted is missing. -/
  | missingFile
  /-- Symbolic links go round in a circle. -/
  | linkCircle
deriving Repr, DecidableEq

/-- The wording of a fault. -/
def Fault.message : Fault → String
  | .missingMember => "a list is too short"
  | .wrongKind => "a value is of a wrong kind"
  | .unsupported => "a value lacks an operation"
  | .meaningless => "a value has no meaning"
  | .tooLarge => "a number is too large"
  | .missingEntry => "a table lacks an entry"
  | .undecodable => "a file is no text"
  | .missingFile => "a file is missing"
  | .linkCircle => "symbolic links go round in a circle"

/-- Why an operation gives no answer. -/
inductive Failure where
  | config (problem : ConfigProblem)
  | analysis (problem : AnalysisProblem)
  | fault (fault : Fault)
deriving Repr, DecidableEq

/-- The wording of a failure. -/
def Failure.message : Failure → String
  | .config p => p.message
  | .analysis p => p.message
  | .fault f => f.message

/-- Why a text is no document of a data format. -/
inductive DocumentProblem where
  | malformed
  /-- A part of the document is well-formed and has no value. -/
  | fault (fault : Fault)
deriving Repr, DecidableEq

end SourceSurvey
