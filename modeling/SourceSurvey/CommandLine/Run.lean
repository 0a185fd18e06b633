import SourceSurvey.Analysis
import SourceSurvey.CommandLine.Argument
import SourceSurvey.CommandLine.Screen
import SourceSurvey.Settings.File
import SourceSurvey.Summary.Report
import SourceSurvey.Value.Json

/-!
# Running the program

What the program prints for its arguments, and the code with which it exits.
-/

namespace SourceSurvey.CommandLine

/-- What a run of the program leaves behind. -/
structure Transcript where
  exit : Nat
  blocks : List Block := []
  /-- The machine-readable output. -/
  document : String := ""
  /-- The commands that were run. -/
  commands : List Command := []

/-- The path of a text unless it is empty. -/
def pathOf? (text : Option String) : Option Path :=
  (text.filter (!·.isEmpty)).map .ofString

/-- The settings for a file: those of the configuration file that is asked for, or else of the
nearest one, or else the default ones. The environment changes them, and verification can be
switched on. -/
def settingsFor (readers : DocumentReaders) (ws : Workspace) (env : Settings.Environment)
    (c : Choices) (path : Path) : Except Failure Settings := do
  let chosen ← match pathOf? c.config with
    | some file => Settings.load readers ws env file
    | none =>
      match Settings.nearest? ws (← ws.resolve path) Settings.searchDepth with
      | some file => Settings.load readers ws env file
      | none => .ok (Settings.override env {})
  return if c.verify then { chosen with verifyDependencies := .bool true } else chosen

/-- The levels of messages. -/
def logLevels : List String :=
  ["TRACE", "DEBUG", "INFO", "SUCCESS", "WARNING", "ERROR", "CRITICAL"]

/-- A level of messages is one of the known ones, in any letter case. -/
def checkLevel (level : Value) : Except Fault Unit :=
  match level with
  | .string s =>
    if logLevels.contains (.ofList (Text.upper s.toList)) then .ok () else .error .meaningless
  | _ => .error .unsupported

/-- The level of messages that is asked for, or else that of the settings. -/
def levelOf (c : Choices) (settings : Settings) : Value :=
  match c.logLevel.filter (!·.isEmpty) with
  | some level => .string level
  | none => settings.logLevel

/-- The summary that is asked for, and the commands that were run. -/
def analysis (readers : DocumentReaders) (ws : Workspace) (env : Settings.Environment)
    (tools : Toolchain) (c : Choices) (checksDependencies : Bool) :
    Except Failure (Summary × List Command) := do
  let path := Path.ofString (c.path.getD "")
  let settings ← settingsFor readers ws env c path
  (checkLevel (levelOf c settings)).mapError .fault
  Request.answer ⟨path, c.language, pathOf? c.workspace, checksDependencies⟩ readers ws settings
    tools

/-- A document on a line of its own. -/
def documentOf (v : Value) : String :=
  Json.render 0 v ++ "\n"

namespace Task

/-- The run of a task. -/
def run (task : Task) (c : Choices) (readers : DocumentReaders) (ws : Workspace)
    (env : Settings.Environment) (tools : Toolchain) : Except Failure Transcript := do
  match task with
  | .analyze =>
    let (summary, commands) ← analysis readers ws env tools c c.deps
    if c.json then return { exit := 0, document := documentOf summary.report, commands }
    else return { exit := 0, blocks := Screen.summary summary, commands }
  | .deps =>
    let (summary, commands) ← analysis readers ws env tools { c with workspace := none } true
    let issues := summary.dependencyStatuses
    let exit := if issues.any (·.status == .missing) then 1 else 0
    if c.json then
      return { exit, document := documentOf (.list (issues.map DependencyStatus.report)), commands }
    else return { exit, blocks := Screen.dependencies issues, commands }
  | .languages => return { exit := 0, blocks := Screen.languages }

end Task

/-- The run that ends before a task. -/
def Ending.transcript : Ending → Transcript
  | .help => { exit := 0 }
  | .misuse => { exit := 2 }

/-- The run of the program. Problems of files and of the configuration are told to the user; other
failures end the program. -/
def run (readers : DocumentReaders) (ws : Workspace) (env : Settings.Environment)
    (tools : Toolchain) (args : List String) : Except Failure Transcript :=
  match Task.ofArguments args with
  | .error ending => .ok ending.transcript
  | .ok (task, c) =>
    match task.run c readers ws env tools with
    | .error (.config p) => .ok { exit := 1, blocks := [Screen.error p.message] }
    | .error (.analysis p) => .ok { exit := 1, blocks := [Screen.error p.message] }
    | answer => answer

end SourceSurvey.CommandLine
