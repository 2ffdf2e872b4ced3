import Progeny.Proofs.Session.Chronicles
import Progeny.Proofs.Session.Teardown
import Progeny.Proofs.Workload.Opening

/-! Running a workload whose instances keep diaries: it runs as it does without them, and leaves the
diaries to be read. -/

namespace Progeny

/-- A session of a workload whose instances keep diaries. -/
abbrev Chronicle := Session Workload (Diary (Except String Actor)) (Unit × List Memoir)

namespace Chronicle

/-- The memoirs of all instances that have ended. -/
def memoirs (chronicle : Chronicle) : List Memoir :=
  chronicle.shared.2

/-- The session without any diaries. -/
def plain (chronicle : Chronicle) : Workload.Play :=
  chronicle.seen Diary.state Prod.fst

end Chronicle

namespace Workload

open Session

variable {β γ σ τ : Type} {workload : Workload} {config : Config}
  {stepsPerRun maxSteps : Option Nat}

/-- Runs a session of a workload again and again, whatever its programs are, as long as `playOn`
does. -/
def drive (behaviour : Behaviour Workload β σ) (stepsPerRun maxSteps : Option Nat) :
    Nat → Nat → Session Workload β σ → Option (Except SessionError Report × Session Workload β σ)
  | 0, _, _ => none
  | fuel + 1, iterations, session => do
    let left := maxSteps.map (· - session.consumedSteps)
    let (result, session) ← session.run behaviour fuel (nextMode stepsPerRun left)
    match result with
    | .error error => return (.error error, session)
    | .ok (.exited code steps) =>
      return (.ok ⟨code, steps, iterations + 1, session.capture.fingerprint⟩, session)
    | .ok (.paused steps) =>
      match maxSteps.filter (· ≤ steps) with
      | some limit => return (.error (.stepsExceeded steps limit), session)
      | none => drive behaviour stepsPerRun maxSteps fuel (iterations + 1) session

/-- Playing on is to run a session with the programs of workloads. -/
theorem playOn_eq_drive (fuel iterations : Nat) (session : Play) :
    playOn stepsPerRun maxSteps fuel iterations session =
      drive (behaviour Unit) stepsPerRun maxSteps fuel iterations session := by
  induction fuel generalizing iterations session with
  | zero => rfl
  | succ fuel ih =>
    refine congrArg (session.run (behaviour Unit) fuel _ >>= ·) (funext fun ⟨result, later⟩ => ?_)
    cases result with
    | error error => rfl
    | ok outcome =>
      cases outcome with
      | exited code steps => rfl
      | paused steps =>
        cases stop : maxSteps.filter (· ≤ steps) with
        | some limit => simp only [stop]
        | none => simp only [stop, ih]

/-- What is seen of a session is run as the session is. -/
theorem drive_seen {behaviour : Behaviour Workload β σ} {plain : Behaviour Workload γ τ}
    {own : β → γ} {common : σ → τ} (same : behaviour.SeenAs plain own common)
    (stepsPerRun maxSteps : Option Nat) (fuel iterations : Nat) (session : Session Workload β σ) :
    drive plain stepsPerRun maxSteps fuel iterations (session.seen own common) =
      (drive behaviour stepsPerRun maxSteps fuel iterations session).map
        (Prod.map id (seen own common)) := by
  -- Run by run, both sides come to the same outcome.
  induction fuel generalizing iterations session with
  | zero => rfl
  | succ fuel ih =>
    simp only [drive, run_seen session same, Option.bind_eq_bind]
    rw [show (session.seen own common).consumedSteps = session.consumedSteps from rfl]
    cases session.run behaviour fuel
        (nextMode stepsPerRun (maxSteps.map (· - session.consumedSteps))) with
    | none => rfl
    | some run =>
      obtain ⟨result, after⟩ := run
      match result with
      | .error error => rfl
      | .ok (.exited code steps) => rfl
      | .ok (.paused steps) =>
        dsimp only [Option.map_some, Option.bind_some, Prod.map_apply, id_eq]
        cases maxSteps.filter (fun limit => decide (limit ≤ steps)) with
        | some limit => rfl
        | none => exact ih (iterations + 1) after

/-- Sets up a session for a workload whose instances keep diaries, and boots its first instance. -/
def openChronicle (workload : Workload) (config : Config) : Except SessionError Chronicle := do
  let tables ← Tables.new config workload.programs.resolve false
  let (booted, session) :=
    (Session.ofTables tables ((), [])).boot Actor.descriptor Actor.rootArgv
  let _ ← booted
  return session

/-- Runs a workload whose instances keep diaries, and gives its session as it is left. -/
def chronicle (fuel : Nat) (workload : Workload) (config : Config)
    (stepsPerRun maxSteps : Option Nat) :
    Option (Except SessionError (Except SessionError Report × Chronicle)) :=
  match workload.openChronicle config with
  | .error error => some (.error error)
  | .ok session =>
    (drive (behaviour Unit).recorded stepsPerRun maxSteps fuel 0 session).map .ok

/-- What running a workload comes to, by what it comes to with diaries. -/
def played : Except SessionError (Except SessionError Report × Chronicle) →
    Except SessionError (Report × Play)
  | .error error => .error error
  | .ok (result, chronicle) => result.map (·, chronicle.plain)

/-- Under valid budgets a session with diaries is opened. -/
def openedChronicle (workload : Workload) (config : Config) : Chronicle :=
  ((Session.ofTables (workload.freshTables config) ((), [])).boot Actor.descriptor
    Actor.rootArgv).2

/-- It is opened exactly if the session without diaries is, and that is what is seen of it. -/
theorem open_case (workload : Workload) (config : Config) :
    (∃ error, workload.openSession config = .error error ∧
      workload.openChronicle config = .error error) ∨
    Tables.new config workload.programs.resolve false = .ok (workload.freshTables config) ∧
      workload.openSession config = .ok (workload.openedChronicle config).plain ∧
      workload.openChronicle config = .ok (workload.openedChronicle config) := by
  unfold openSession openChronicle Tables.new
  cases config.validate with
  | error error => exact .inl ⟨error, rfl, rfl⟩
  | ok passed => exact .inr ⟨rfl, rfl, rfl⟩

/-- Diaries change nothing. -/
theorem play_eq_chronicle (fuel : Nat) (workload : Workload) (config : Config)
    (stepsPerRun maxSteps : Option Nat) :
    workload.play fuel config stepsPerRun maxSteps =
      (workload.chronicle fuel config stepsPerRun maxSteps).map played := by
  unfold play chronicle
  rcases open_case workload config with ⟨error, plain, kept⟩ | ⟨-, plain, kept⟩
  · rw [plain, kept]
    rfl
  · rw [plain, kept]
    have same := drive_seen (behaviour Unit).recorded_seenAs stepsPerRun maxSteps fuel 0
      (workload.openedChronicle config)
    dsimp only
    rw [playOn_eq_drive]
    refine (congrArg (Option.bind · _) same).trans ?_
    cases drive (behaviour Unit).recorded stepsPerRun maxSteps fuel 0
        (workload.openedChronicle config) with
    | none => rfl
    | some outcome => rfl

/-- What a session with diaries is left as: all of them are true, and if its first instance has
exited, nothing is open. -/
structure Told (workload : Workload) (result : Except SessionError Report)
    (chronicle : Chronicle) : Prop where
  chronicled : Chronicled (behaviour Unit) workload.programs.resolve chronicle
  sound : chronicle.tables.Sound
  exits : ∀ report, result = .ok report →
    chronicle.tables.instances.exitCode .root = some report.exitCode
  closed : ∀ report, result = .ok report → chronicle.tables.pipes.openEndpoints = 0 ∧
    ∀ pipe ∈ chronicle.tables.pipes.pipes, ∀ side, (pipe.on side).isOpen = false

/-- However a session with diaries is driven, they are true when it is left. -/
theorem told_of_drive {fuel iterations : Nat} {chronicle after : Chronicle}
    {result : Except SessionError Report}
    (reached : Reached (behaviour Unit).recorded chronicle) (ongoing : chronicle.finished = none)
    (booted : chronicle.root = some .root)
    (chronicled : Chronicled (behaviour Unit) workload.programs.resolve chronicle)
    (driven : drive (behaviour Unit).recorded stepsPerRun maxSteps fuel iterations chronicle =
      some (result, after)) : workload.Told result after := by
  induction fuel generalizing iterations chronicle with
  | zero => simp [drive] at driven
  | succ fuel ih =>
    simp only [drive, Option.bind_eq_bind, Option.bind_eq_some_iff] at driven
    obtain ⟨⟨outcome, middle⟩, once, driven⟩ := driven
    simp only [Session.run, ongoing, booted] at once
    have runs := runs_of_rounds once
    have told := runs.chronicled reached ongoing booted chronicled
    have reachedToo := reached.runs ongoing booted runs
    have sound := reachedToo.orderly.sound
    obtain ⟨last, rest, reachedLast, ongoingLast, bootedLast, round⟩ :=
      reached.last ongoing booted runs
    cases outcome with
    | error error =>
      obtain ⟨rfl, rfl⟩ := Prod.mk.inj (Option.some.inj driven)
      exact ⟨told, sound, by simp, by simp⟩
    | ok outcome =>
      cases outcome with
      | exited code steps =>
        obtain ⟨rfl, rfl⟩ := Prod.mk.inj (Option.some.inj driven)
        cases round with
        | exits consistent exited =>
          -- Whatever was open belonged to somebody who ran, and they are all torn down.
          obtain ⟨deeds, history, -⟩ := reachedLast.history
          have concluded := reachedLast.orderly.concluded history.guarded ongoingLast code
          refine ⟨told, sound, fun report same => ?_, fun report same => ?_⟩
          · obtain rfl := Except.ok.inj same
            rw [finish_instances]
            exact exited
          · exact ⟨concluded.openEndpoints, fun pipe there side =>
              (concluded.ends pipe there side).1⟩
      | paused steps =>
        dsimp only at driven
        split at driven
        · obtain ⟨rfl, rfl⟩ := Prod.mk.inj (Option.some.inj driven)
          exact ⟨told, sound, by simp, by simp⟩
        · cases round with
          | pauses =>
            exact ih reachedToo (launch_finished.trans ongoingLast)
              (launch_root.trans bootedLast) told driven

/-- Whatever a workload with diaries comes to, they are true. -/
theorem told_of_chronicle {fuel : Nat} {chronicle : Chronicle}
    {result : Except SessionError Report}
    (recorded : workload.chronicle fuel config stepsPerRun maxSteps =
      some (.ok (result, chronicle))) : workload.Told result chronicle := by
  unfold Workload.chronicle at recorded
  rcases open_case workload config with ⟨error, -, refused⟩ | ⟨fresh, -, opens⟩
  · simp [refused] at recorded
  · rw [opens] at recorded
    obtain ⟨outcome, driven, same⟩ := Option.map_eq_some_iff.mp recorded
    obtain rfl := Except.ok.inj same
    have reached : Reached (behaviour Unit).recorded (workload.openedChronicle config) :=
      .boots (.opens fresh ((), [])) Actor.descriptor Actor.rootArgv
    exact told_of_drive reached rfl rfl
      (chronicled_boot fresh (behaviour Unit) () Actor.descriptor Actor.rootArgv) driven

end Workload

end Progeny
