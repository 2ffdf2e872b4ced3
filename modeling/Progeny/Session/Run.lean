import Progeny.Session.Poll

/-! Running a session: in each round the next ready instance is polled, until the first instance
has exited, a number of polls is used up, or nothing is ready. -/

namespace Progeny.Session

variable {π β σ : Type}

/-- Tears down whatever is left once the first instance has exited. -/
def finish (session : Session π β σ) (code : Int8) : RunOutcome × Session π β σ :=
  let left := session.liveInstances ++ session.tables.launches.map Launch.id
  let outcome := RunOutcome.exited code session.consumedSteps
  (outcome,
    { session with
      tables := { left.foldl Tables.teardown session.tables with launches := [] }
      tasks := []
      woken := []
      finished := some outcome })

/-- The result of a run, with the session after it. -/
abbrev Run (π β σ : Type) := Except SessionError RunOutcome × Session π β σ

/-- What a round of a run led to. -/
inductive Round (π β σ : Type) where
  /-- The run is over. -/
  | ends (run : Run π β σ)
  /-- The run goes on, with what is left of its polls. -/
  | further (left : Option Nat) (session : Session π β σ)

/-- One round of a run that began with the first instance `root`. There is no result if a poll takes
more than `fuel` actions. -/
def round (behaviour : Behaviour π β σ) (root : InstanceId) (fuel : Nat) (left : Option Nat)
    (session : Session π β σ) : Option (Round π β σ) :=
  match session.tables.violation with
  | some violation => some (.ends (.error (.inconsistent violation), session))
  | none =>
    match session.tables.instances.exitCode root with
    | some code =>
      let (outcome, session) := session.finish code
      some (.ends (.ok outcome, session))
    | none =>
      -- The limit is asked for after the launch, so a pause leaves nobody waiting to be started.
      let session := session.launch behaviour
      if left = some 0 then some (.ends (.ok (.paused session.consumedSteps), session))
      else
        match session.nextReady with
        | none => some (.ends (.error (.deadlock session.liveInstances), session))
        | some id =>
          match session.task? id with
          -- An instance that has ended is passed over, and that is no poll.
          | none => some (.further left (session.unwake id))
          | some task =>
            (session.poll behaviour fuel task).map (.further (left.map (· - 1)))

/-- Goes from round to round until the run is over. There is no result if that takes more than
`fuel` rounds, or a poll more than as many actions. -/
def rounds (behaviour : Behaviour π β σ) (root : InstanceId) :
    Nat → Option Nat → Session π β σ → Option (Run π β σ)
  | 0, _, _ => none
  | fuel + 1, left, session => do
    match ← session.round behaviour root fuel left with
    | .ends run => return run
    | .further left session => rounds behaviour root fuel left session

/-- Runs a session. One that is over has the same outcome ever after. -/
def run (behaviour : Behaviour π β σ) (fuel : Nat) (mode : RunMode) (session : Session π β σ) :
    Option (Run π β σ) :=
  match session.finished with
  | some outcome => some (.ok outcome, session)
  | none =>
    match session.root with
    | none => some (.error (.config "no root instance booted"), session)
    | some root => rounds behaviour root fuel mode.limit? session

end Progeny.Session
