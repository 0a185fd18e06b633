import SourceSurvey.CommandLine.Run
import SourceSurvey.Value.Readers
import SourceSurvey.Workspace.Snapshot

/-!
# The program

The command line. The files that the arguments speak of are those of a snapshot, a JSON document on
standard input that maps paths to contents. Nothing is executed: commands count as not started.
-/

open SourceSurvey

/-- The snapshot that a text writes; a text that writes none stands for an empty working directory.
-/
def snapshotOf (text : String) : Workspace :=
  .ofSnapshot ["work"] ((Json.parse text.toList).toOption.getD .null)

/-- Prints the answer to the arguments and gives the exit code. -/
def main (args : List String) : IO UInt32 := do
  let ws := snapshotOf (← (← IO.getStdin).readToEnd)
  let env := ⟨← IO.getEnv "CODESTATS_VERIFY", ← IO.getEnv "CODESTATS_LOG_LEVEL"⟩
  match CommandLine.run .standard ws env (fun _ => .notStarted) args with
  | .ok t =>
    for block in t.blocks do
      IO.println block.text
    IO.print t.document
    return t.exit.toUInt32
  | .error failure =>
    IO.eprintln failure.message
    return 1
