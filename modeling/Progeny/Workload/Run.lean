import Progeny.Session.Run
import Progeny.Snapshot.Capture
import Progeny.Workload.Actor

/-! Running a workload to its end, at once or a number of steps at a time. -/

namespace Progeny

/-- The end of a session that ran a workload. -/
structure Report where
  exitCode : Int8
  /-- The number of polls that it took. This count and the next have no bound here: words of 64 bits
  hold them as well, since 2 ^ 64 polls or runs are out of reach. -/
  consumedSteps : Nat
  /-- The number of runs that it took. -/
  iterations : Nat
  /-- The fingerprint of what the session held at its end. -/
  fingerprint : String
  deriving DecidableEq

namespace Report

/-- A report is written as an object of its parts. -/
def toJson (report : Report) : Json :=
  .object [("exit_code", .integer report.exitCode.toInt),
    ("consumed_steps", .ofNat report.consumedSteps), ("iterations", .ofNat report.iterations),
    ("fingerprint", .text report.fingerprint)]

end Report

namespace Workload

/-- A session of instances of a workload. -/
abbrev Play := Session Workload (Except String Actor) Unit

/-- The programs of a session that runs a workload. -/
def programs (workload : Workload) : ProgramRegistry Workload :=
  ({} : ProgramRegistry Workload).register
    ⟨Actor.descriptor.index, Actor.descriptor.source, none, workload⟩

/-- How long the next of several runs may go on, from the steps of one run and what is left of
the budget. A run of no steps stands for one without a limit of its own. -/
def nextMode (stepsPerRun left : Option Nat) : RunMode :=
  match stepsPerRun.filter (0 < ·), left with
  | some steps, some left => .limitSteps (min steps left)
  | some steps, none | none, some steps => .limitSteps steps
  | none, none => .unlimited

/-- Runs a session again and again until its first instance has exited or the budget of steps is
used up. There is no result if that takes more than `fuel` runs. -/
def playOn (stepsPerRun maxSteps : Option Nat) :
    Nat → Nat → Play → Option (Except SessionError Report × Play)
  | 0, _, _ => none
  | fuel + 1, iterations, session => do
    let left := maxSteps.map (· - session.consumedSteps)
    let (result, session) ← session.run (behaviour Unit) fuel (nextMode stepsPerRun left)
    match result with
    | .error error => return (.error error, session)
    | .ok (.exited code steps) =>
      return (.ok ⟨code, steps, iterations + 1, session.capture.fingerprint⟩, session)
    | .ok (.paused steps) =>
      -- A run that paused has used up its own limit, or the budget of all runs.
      match maxSteps.filter (· ≤ steps) with
      | some limit => return (.error (.stepsExceeded steps limit), session)
      | none => playOn stepsPerRun maxSteps fuel (iterations + 1) session

/-- Sets up a session for a workload and boots its first instance. -/
def openSession (workload : Workload) (config : Config) : Except SessionError Play := do
  let tables ← Tables.new config workload.programs.resolve false
  let (booted, session) := (Session.ofTables tables ()).boot Actor.descriptor Actor.rootArgv
  let _ ← booted
  return session

/-- Runs a workload in a session of its own, and gives that session as it is left. -/
def play (fuel : Nat) (workload : Workload) (config : Config)
    (stepsPerRun maxSteps : Option Nat) : Option (Except SessionError (Report × Play)) :=
  match workload.openSession config with
  | .error error => some (.error error)
  | .ok session => do
    let (result, session) ← playOn stepsPerRun maxSteps fuel 0 session
    return result.map (·, session)

/-- Runs a workload and reports its end. -/
def run (fuel : Nat) (workload : Workload) (config : Config)
    (stepsPerRun maxSteps : Option Nat) : Option (Except SessionError Report) :=
  (workload.play fuel config stepsPerRun maxSteps).map (·.map Prod.fst)

end Workload

end Progeny
