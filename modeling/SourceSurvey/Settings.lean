import SourceSurvey.Text.LetterCase
import SourceSurvey.Text.Trim
import SourceSurvey.Value.Literal

/-!
# Settings

The settings of an analysis, read from a mapping of keys to values. Settings of a kind that cannot
be compared as needed are refused, and so are settings out of bounds; a setting that nothing
compares is kept as it is given.
-/

namespace SourceSurvey

/-- A number as a setting has it; truth values count as one and zero. -/
inductive Quantity where
  | truth (b : Bool)
  | whole (n : Int)
  | real (x : Binary64)
deriving Repr, DecidableEq, Inhabited

namespace Quantity

/-- The number that a value is. -/
def ofValue? : Value → Option Quantity
  | .bool b => some (.truth b)
  | .int n => some (.whole n)
  | .float x => some (.real x)
  | _ => none

/-- The number as a value. -/
def toValue : Quantity → Value
  | .truth b => .bool b
  | .whole n => .int n
  | .real x => .float x

/-- The whole number that a truth value counts as. -/
def ofTruth (b : Bool) : Int :=
  if b then 1 else 0

/-- The number is less than a whole number. -/
def lt : Quantity → Int → Bool
  | .truth b, k => ofTruth b < k
  | .whole n, k => n < k
  | .real x, k => x.ltInt k

/-- The number is greater than a whole number. -/
def gt : Quantity → Int → Bool
  | .truth b, k => k < ofTruth b
  | .whole n, k => k < n
  | .real x, k => x.gtInt k

/-- The number equals a whole number. -/
def eq : Quantity → Int → Bool
  | .truth b, k => ofTruth b == k
  | .whole n, k => n == k
  | .real x, k => x.eqInt k

/-- The number is at most a whole number. -/
def le (q : Quantity) (k : Int) : Bool :=
  q.lt k || q.eq k

end Quantity

/-- The settings of an analysis. -/
structure Settings where
  /-- How many directories are searched upward for manifests. -/
  manifestSearchDepth : Quantity := .whole 5
  verifyDependencies : Value := .bool false
  /-- Seconds after which a verification command is given up. -/
  verificationTimeout : Quantity := .real (.ofNat 10)
  pythonExecutable : Value := .string "python"
  nodeExecutable : Value := .string "node"
  composerExecutable : Value := .string "composer"
  externalUsageEnabled : Value := .bool true
  externalUsageMaxFiles : Quantity := .whole 50
  externalUsageWorkers : Quantity := .whole 4
  /-- Names of directories that are not searched for uses. -/
  ignoredDirs : List Value :=
    [".git", "node_modules", "vendor", "__pycache__", ".venv", "venv", "dist", "build"].map .string
  logLevel : Value := .string "INFO"
deriving Repr, Inhabited

namespace Settings

/-- The keys of a configuration. -/
def keys : List String :=
  ["manifest_search_depth", "verify_dependencies", "verification_timeout", "python_executable",
    "node_executable", "composer_executable", "external_usage_enabled",
    "external_usage_max_files", "external_usage_workers", "ignored_dirs", "log_level"]

/-- The longest time that a verification command may take, in seconds. -/
def maxTimeout : Int := 30

/-- The set of the members of a value, if it has members and each can be one of a set. -/
def setOf? (v : Value) : Option (List Value) := do
  let items ← v.members?
  if items.all Value.isHashable then some (Value.distinctFrom [] items) else none

/-- A number that is neither refused for its kind nor out of bounds. -/
def checked (v : Value) (isOutside : Quantity → Bool) (problem : ConfigProblem) :
    Except Failure Quantity :=
  match Quantity.ofValue? v with
  | none => .error (.config .invalid)
  | some q => if isOutside q then .error (.config problem) else .ok q

/-- A timeout that is not too long, or the longest one in the place of one that is. The warning
about that names the timeout, which fails if the number is too long to be written. -/
def cut (timeout : Quantity) : Except Failure Quantity :=
  if timeout.gt maxTimeout then
    if timeout.toValue.isWritable then .ok (.real (.ofNat maxTimeout.toNat))
    else .error (.fault .meaningless)
  else .ok timeout

/-- The settings that a mapping of known keys gives; a missing key has its default. The settings are
checked in order, and a timeout that is too long is cut. -/
def ofKnown (entries : List (Value × Value)) : Except Failure Settings := do
  let base : Settings := {}
  let get := fun key (default : Value) => (Value.entry? key entries).getD default
  let depth ← checked (get "manifest_search_depth" base.manifestSearchDepth.toValue)
    (·.lt 1) .searchTooShallow
  let timeout ← checked (get "verification_timeout" base.verificationTimeout.toValue)
    (·.le 0) .timeoutNotPositive
  let timeout ← cut timeout
  let files ← checked (get "external_usage_max_files" base.externalUsageMaxFiles.toValue)
    (·.lt 0) .negativeFileCap
  let workers ← checked (get "external_usage_workers" base.externalUsageWorkers.toValue)
    (·.lt 1) .noWorkers
  let ignored ← match setOf? (get "ignored_dirs" (.set base.ignoredDirs)) with
    | some items => .ok items
    | none => .error (.config .invalid)
  return {
    manifestSearchDepth := depth
    verifyDependencies := get "verify_dependencies" base.verifyDependencies
    verificationTimeout := timeout
    pythonExecutable := get "python_executable" base.pythonExecutable
    nodeExecutable := get "node_executable" base.nodeExecutable
    composerExecutable := get "composer_executable" base.composerExecutable
    externalUsageEnabled := get "external_usage_enabled" base.externalUsageEnabled
    externalUsageMaxFiles := files
    externalUsageWorkers := workers
    ignoredDirs := ignored
    logLevel := get "log_level" base.logLevel }

/-- The keys of a mapping that no setting has. -/
def unknownKeys (entries : List (Value × Value)) : List Value :=
  (entries.map (·.1)).filter fun k => !keys.any fun known => Value.same k (.string known)

/-- The texts of values, if all of them are texts. -/
def texts? (values : List Value) : Option (List String) :=
  values.mapM fun v =>
    match v with
    | .string s => some s
    | _ => none

/-- The settings that a mapping gives. Unknown keys are refused and listed in order; keys that are
no text cannot be listed. -/
def ofMapping (entries : List (Value × Value)) : Except Failure Settings :=
  match unknownKeys entries with
  | [] => ofKnown entries
  | unknown =>
    match texts? unknown with
    | none => .error (.fault .wrongKind)
    | some names => .error (.config (.unknownKeys (names.mergeSort fun a b => a ≤ b)))

/-- The variables of the environment that change settings. -/
structure Environment where
  verify : Option String := none
  logLevel : Option String := none
deriving Repr, DecidableEq, Inhabited

/-- Words that switch verification on. -/
def affirmations : List String :=
  ["1", "true", "yes", "on"]

/-- The settings as the environment changes them. -/
def override (env : Environment) (s : Settings) : Settings :=
  let s := match env.verify with
    | some v =>
      let word := String.ofList (Text.lower (Text.trim v.toList))
      { s with verifyDependencies := .bool (affirmations.contains word) }
    | none => s
  match env.logLevel.filter (!·.isEmpty) with
  | some v => { s with logLevel := .string (.ofList (Text.upper (Text.trim v.toList))) }
  | none => s

/-- The settings in a report. -/
def report (s : Settings) : Value :=
  .object [("manifest_search_depth", s.manifestSearchDepth.toValue),
    ("verify_dependencies", s.verifyDependencies),
    ("verification_timeout", s.verificationTimeout.toValue),
    ("python_executable", s.pythonExecutable), ("node_executable", s.nodeExecutable),
    ("composer_executable", s.composerExecutable),
    ("external_usage_enabled", s.externalUsageEnabled),
    ("external_usage_max_files", s.externalUsageMaxFiles.toValue),
    ("external_usage_workers", s.externalUsageWorkers.toValue),
    ("ignored_dirs", .set s.ignoredDirs), ("log_level", s.logLevel)]

end Settings

end SourceSurvey
