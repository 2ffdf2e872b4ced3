import Progeny.Proofs.Session.Rounds

/-! The states that a session can come to: from fresh tables, by creating its first instance, and
by runs in any modes. -/

namespace Progeny.Session

variable {π β σ : Type} {behaviour : Behaviour π β σ}

/-- A session as some calls from outside and some rounds of its runs leave it. -/
inductive Reached (behaviour : Behaviour π β σ) : Session π β σ → Prop where
  | opens {config : Config} {load : Descriptor → Except CallError π} {keepsEvents : Bool}
      {tables : Tables π} (valid : Tables.new config load keepsEvents = .ok tables) (shared : σ) :
    Reached behaviour (.ofTables tables shared)
  | boots {session : Session π β σ} (reached : Reached behaviour session)
      (descriptor : Descriptor) (argv : List Bytes) :
    Reached behaviour (session.boot descriptor argv).2
  | further {session middle : Session π β σ} {root : InstanceId} {left rest : Option Nat}
      (reached : Reached behaviour session) (ongoing : session.finished = none)
      (booted : session.root = some root)
      (next : RoundCase behaviour root left session (.further rest middle)) :
    Reached behaviour middle
  | ends {session after : Session π β σ} {root : InstanceId} {left : Option Nat}
      {result : Except SessionError RunOutcome} (reached : Reached behaviour session)
      (ongoing : session.finished = none) (booted : session.root = some root)
      (last : RoundCase behaviour root left session (.ends (result, after))) :
    Reached behaviour after

/-- A session of default budgets in which the first instance of its only program was created. -/
def solo : Session Unit β Unit :=
  let tables : Tables Unit :=
    ⟨{}, fun _ => .ok (), ⟨4096, 64, .first, 0, []⟩, ⟨16, 8, 0, []⟩, [], {}, {}, none⟩
  ((ofTables tables ()).boot { index := 0, source := 0 } []).2

/-- It takes no run to come there. -/
theorem reached_solo (behaviour : Behaviour Unit β Unit) : Reached behaviour solo := by
  have valid : Tables.new {} (fun _ => .ok ()) true = .ok
      ⟨{}, fun _ => .ok (), ⟨4096, 64, .first, 0, []⟩, ⟨16, 8, 0, []⟩, [], {}, {}, none⟩ := rfl
  exact .boots (.opens valid ()) _ []

namespace Reached

variable {session after : Session π β σ} (reached : Reached behaviour session)
include reached

/-- The last round of a run begins where the session can come to. -/
theorem last {root : InstanceId} {left : Option Nat} {run : Run π β σ}
    (ongoing : session.finished = none) (booted : session.root = some root)
    (runs : Runs behaviour root left session run) :
    ∃ middle rest, Reached behaviour middle ∧ middle.finished = none ∧ middle.root = some root ∧
      RoundCase behaviour root rest middle (.ends run) := by
  -- Until its last round a run neither finishes the session nor changes its first instance.
  induction runs with
  | ends last => exact ⟨_, _, reached, ongoing, booted, last⟩
  | further next goes ih =>
    have frame := next.frame
    exact ih (.further reached ongoing booted next) (frame.1.trans ongoing) (frame.2.trans booted)

/-- Wherever a run leads, the session comes there. -/
theorem runs {root : InstanceId} {left : Option Nat} {result : Except SessionError RunOutcome}
    (ongoing : session.finished = none) (booted : session.root = some root)
    (runs : Runs behaviour root left session (result, after)) : Reached behaviour after := by
  obtain ⟨middle, rest, reached, ongoing, booted, last⟩ := reached.last ongoing booted runs
  exact .ends reached ongoing booted last

/-- Whatever a session returns with, it has come there. -/
theorem returns {mode : RunMode} {result : Except SessionError RunOutcome}
    (returned : Returns behaviour mode session (result, after)) : Reached behaviour after := by
  -- A session that is over, or that was never begun, is left as it is.
  cases return_case returned with
  | again | unbooted => exact reached
  | runs ongoing booted runs => exact reached.runs ongoing booted runs

/-- A deadlock is found in the last round of a run of a session that goes on. -/
theorem last_of_deadlock {mode : RunMode} {blocked : List InstanceId}
    (returned : Returns behaviour mode session (.error (.deadlock blocked), after)) :
    ∃ root middle rest, Reached behaviour middle ∧ middle.finished = none ∧
      middle.root = some root ∧
      RoundCase behaviour root rest middle (.ends (.error (.deadlock blocked), after)) := by
  -- Only a session that is under way can be deadlocked.
  cases return_case returned with
  | runs ongoing booted runs => exact ⟨_, reached.last ongoing booted runs⟩

/-- Starting the created instances of a session that goes on is a step of its own: it is all that a
run of no polls does. -/
theorem launch {root : InstanceId} (ongoing : session.finished = none)
    (booted : session.root = some root) (underway : Underway root session) :
    Reached behaviour (session.launch behaviour) :=
  .ends reached ongoing booted (.pauses underway rfl)

/-- A session is finished only by the exit of its first instance. -/
theorem finished {outcome : RunOutcome} (ended : session.finished = some outcome) :
    ∃ code steps, outcome = .exited code steps := by
  -- The outcome is set by the round that finds the root exited, and by none else.
  induction reached with
  | opens => simp [ofTables] at ended
  | boots reached descriptor argv ih =>
    refine ih ?_
    unfold boot at ended
    split at ended <;> exact ended
  | further reached ongoing booted next ih =>
    rw [next.frame.1, ongoing] at ended
    simp at ended
  | ends reached ongoing booted last ih =>
    cases last with
    | inconsistent => exact ih ended
    | exits sound exited => exact ⟨_, _, (Option.some.inj ended).symm⟩
    | pauses | stalls =>
      rw [launch_finished] at ended
      exact ih ended

end Reached

end Progeny.Session
