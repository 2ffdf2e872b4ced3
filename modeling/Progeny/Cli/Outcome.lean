import Progeny.Cli.Disk
import Progeny.Cli.Options
import Progeny.Json.Printer
import Progeny.Workload.Generate
import Progeny.Workload.Run

/-! The command line: it draws a random workload, runs it and reports its end. -/

namespace Progeny.Cli

/-- A file that is to hold a workload. -/
structure GraphFile where
  path : String
  text : String

/-- What an invocation leaves behind. -/
structure Result where
  exitCode : Nat
  /-- What is printed before the workload is written and run. -/
  heading : String := ""
  /-- What is printed after that. -/
  report : String := ""
  errors : String := ""
  /-- The file of the workload, if it is to be written. -/
  graph : Option GraphFile := none

/-- All that is printed. -/
def Result.output (result : Result) : String :=
  result.heading ++ result.report

/-- What is left where the file of the workload could not be written: it is never run. -/
def Result.unwritten (result : Result) (file : GraphFile) (failure : WriteFailure) : Result :=
  { exitCode := 1
    heading := result.heading
    errors := "Error: writing " ++ file.path ++ "\n\nCaused by:\n    " ++ failure.message ++ "\n" }

/-- What is left where the file of the workload goes to a disk. -/
def Result.onDisk (result : Result) (disk : Disk) : Result :=
  match result.graph with
  | none => result
  | some file => (disk.failure? file.path).elim result (result.unwritten file)

/-- The text that tells the version. -/
def versionText : String := "spawn-dag 0.1.0\n"

/-- The text that tells how to use the command. -/
def helpText : String :=
  "Run a seeded random spawn/pipe workload through the scheduler\n\n" ++
  "Usage: spawn-dag [--seed N] [--spawns N] [--writes N] [--converging-threshold N]\n" ++
  "  [--steps-per-iteration N] [--max-steps N] [--output-graph PATH] [--json]\n" ++
  "  [--max-instances N] [--max-endpoints N] [--max-depth N] [--pipe-capacity N]\n"

/-- The report of a session for people. -/
def reportText (report : Report) : String :=
  "Root exited with code " ++ Decimal.signedText report.exitCode.toInt ++ " after " ++
    Decimal.text report.consumedSteps ++ " steps in " ++ Decimal.text report.iterations ++
    " run(s)\nFingerprint: " ++ report.fingerprint ++ "\n"

/-- Runs the workload of a seed. There is no result if a loop takes more than `fuel` rounds. -/
def execute (fuel : Nat) (options : Options) (seed : UInt64) : Option Result := do
  let workload ← Workload.generate fuel seed options.spawns options.writes options.attempts
  let heading := "Seed: " ++ Decimal.text seed.toNat ++ "\n" ++ workload.display
  let graph := options.graphPath.map fun path => ⟨path, workload.toJson.pretty⟩
  match ← workload.run fuel options.config (options.stepsPerRun.map UInt64.toNat)
      (some options.maxSteps.toNat) with
  | .error error =>
    return {
      exitCode := 1
      heading := heading
      errors := "Error: scheduler stopped before the root exited\n\nCaused by:\n    " ++
        error.message ++ "\n"
      graph := graph }
  | .ok report =>
    let text := if options.isJson then report.toJson.pretty ++ "\n" else reportText report
    let failed := report.exitCode ≠ 0
    return {
      exitCode := if failed then 1 else 0
      heading := heading
      report := text
      errors := if failed then
        "Error: root instance exited with code " ++
          Decimal.signedText report.exitCode.toInt ++ "\n" else ""
      graph := graph }

/-- Carries out a command; `seed` is used where the options give none. -/
def perform (fuel : Nat) (seed : UInt64) : Command → Option Result
  | .run options => execute fuel options (options.seed.getD seed)
  | .version => some { exitCode := 0, heading := versionText }
  | .help => some { exitCode := 0, heading := helpText }
  | .refused => some { exitCode := 2, errors := "error: " ++ helpText }

end Progeny.Cli
