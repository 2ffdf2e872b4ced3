import Progeny.Proofs.Session.Turns

/-! What a round of a run can come to, and runs as sequences of rounds without regard to fuel. -/

namespace Progeny.Session

variable {π β σ : Type} {behaviour : Behaviour π β σ} {root : InstanceId}
  {left : Option Nat} {session : Session π β σ}

/-- An instance made ready twice is listed once. -/
theorem woken_wake (id : InstanceId) : (session.wake id).woken =
    if id ∈ session.woken then session.woken else session.woken ++ [id] := by
  unfold wake
  split <;> rfl

theorem mem_woken_wake {id other : InstanceId} :
    other ∈ (session.wake id).woken ↔ other ∈ session.woken ∨ other = id := by
  rw [woken_wake]
  split
  · rename_i already
    refine ⟨Or.inl, ?_⟩
    rintro (here | rfl)
    · exact here
    · exact already
  · simp

/-- The task of an instance that has just been started. -/
def begun (behaviour : Behaviour π β σ) (launch : Launch π) : Task β :=
  ⟨launch.id, behaviour.start launch.program ⟨launch.id, launch.endpoints, launch.argv⟩, none⟩

/-- Starting an instance adds its task and makes it ready. -/
theorem start_eq (session : Session π β σ) (launch : Launch π) :
    start behaviour session launch = { session with
      tasks := session.tasks ++ [begun behaviour launch]
      woken := (session.wake launch.id).woken } := by
  unfold start wake
  dsimp only
  split <;> rfl

/-- Starting instances adds their tasks and makes them ready. -/
theorem foldl_start (launches : List (Launch π)) (session : Session π β σ) :
    ∃ woken, launches.foldl (start behaviour) session =
        { session with tasks := session.tasks ++ launches.map (begun behaviour), woken := woken } ∧
      ∀ id, id ∈ woken ↔ id ∈ session.woken ∨ id ∈ launches.map Launch.id := by
  -- Launch by launch, a task is added and its identity made ready.
  induction launches generalizing session with
  | nil => exact ⟨session.woken, by simp, by simp⟩
  | cons launch rest ih =>
    obtain ⟨woken, same, members⟩ := ih (start behaviour session launch)
    refine ⟨woken, ?_, fun id => ?_⟩
    · rw [List.foldl_cons, same, start_eq]
      simp
    · rw [members, start_eq, mem_woken_wake]
      simp [or_assoc]

/-- All created instances are started at once. -/
theorem launch_eq (behaviour : Behaviour π β σ) (session : Session π β σ) :
    ∃ woken, session.launch behaviour = { session with
        tables := { session.tables with launches := [] }
        tasks := session.tasks ++ session.tables.launches.map (begun behaviour)
        woken := woken } ∧
      ∀ id, id ∈ woken ↔ id ∈ session.woken ∨ id ∈ session.tables.launches.map Launch.id :=
  foldl_start session.tables.launches
    { session with tables := { session.tables with launches := [] } }

@[simp] theorem launch_tables :
    (session.launch behaviour).tables = { session.tables with launches := [] } := by
  obtain ⟨woken, same, -⟩ := launch_eq behaviour session
  rw [same]

@[simp] theorem launch_tasks : (session.launch behaviour).tasks =
    session.tasks ++ session.tables.launches.map (begun behaviour) := by
  obtain ⟨woken, same, -⟩ := launch_eq behaviour session
  rw [same]

@[simp] theorem mem_woken_launch {id : InstanceId} : id ∈ (session.launch behaviour).woken ↔
    id ∈ session.woken ∨ id ∈ session.tables.launches.map Launch.id := by
  obtain ⟨woken, same, members⟩ := launch_eq behaviour session
  rw [same, members]

@[simp] theorem launch_root : (session.launch behaviour).root = session.root := by
  obtain ⟨woken, same, -⟩ := launch_eq behaviour session
  rw [same]

@[simp] theorem launch_lastPolled :
    (session.launch behaviour).lastPolled = session.lastPolled := by
  obtain ⟨woken, same, -⟩ := launch_eq behaviour session
  rw [same]

@[simp] theorem launch_consumedSteps :
    (session.launch behaviour).consumedSteps = session.consumedSteps := by
  obtain ⟨woken, same, -⟩ := launch_eq behaviour session
  rw [same]

@[simp] theorem launch_finished : (session.launch behaviour).finished = session.finished := by
  obtain ⟨woken, same, -⟩ := launch_eq behaviour session
  rw [same]

/-- Where no instance was created there is nothing to start. -/
theorem launch_of_nil (none : session.tables.launches = []) :
    session.launch behaviour = session := by
  -- An empty list of launches is put back as it was.
  cases session
  rename_i tables _ _ _ _ _ _ _
  cases tables
  simp only at none
  simp [launch, none]

/-- Instances are started once. -/
@[simp] theorem launch_launch :
    (session.launch behaviour).launch behaviour = session.launch behaviour :=
  launch_of_nil (by simp)

/-- A run of a session goes on: its tables are consistent, and its first instance has not exited. -/
structure Underway (root : InstanceId) (session : Session π β σ) : Prop where
  sound : session.tables.violation = none
  running : session.tables.instances.exitCode root = none

/-- Starting instances ends no run. -/
@[simp] theorem underway_launch :
    Underway root (session.launch behaviour) ↔ Underway root session := by
  -- A launch touches neither what is checked nor the exit code of the root.
  constructor
  · rintro ⟨sound, running⟩
    simp only [launch_tables] at sound running
    exact ⟨sound, running⟩
  · rintro ⟨sound, running⟩
    exact ⟨by simpa using sound, by simpa using running⟩

/-- What a round of a run can come to. -/
inductive RoundCase (behaviour : Behaviour π β σ) (root : InstanceId) (left : Option Nat)
    (session : Session π β σ) : Round π β σ → Prop where
  | inconsistent {violation : Violation} (found : session.tables.violation = some violation) :
    RoundCase behaviour root left session (.ends (.error (.inconsistent violation), session))
  | exits {code : Int8} (sound : session.tables.violation = none)
      (exited : session.tables.instances.exitCode root = some code) :
    RoundCase behaviour root left session
      (.ends (.ok (.exited code session.consumedSteps), (session.finish code).2))
  | pauses (underway : Underway root session) (spent : left = some 0) :
    RoundCase behaviour root left session
      (.ends (.ok (.paused session.consumedSteps), session.launch behaviour))
  | stalls (underway : Underway root session) (budget : left ≠ some 0)
      (idle : (session.launch behaviour).nextReady = none) :
    RoundCase behaviour root left session
      (.ends (.error (.deadlock (session.launch behaviour).liveInstances),
        session.launch behaviour))
  | passes {id : InstanceId} (underway : Underway root session) (budget : left ≠ some 0)
      (next : (session.launch behaviour).nextReady = some id)
      (gone : (session.launch behaviour).task? id = none) :
    RoundCase behaviour root left session
      (.further left ((session.launch behaviour).unwake id))
  | polls {id : InstanceId} {task : Task β} {after : Session π β σ}
      (underway : Underway root session) (budget : left ≠ some 0)
      (next : (session.launch behaviour).nextReady = some id)
      (found : (session.launch behaviour).task? id = some task)
      (polled : Polls behaviour task (session.launch behaviour) after) :
    RoundCase behaviour root left session (.further (left.map (· - 1)) after)

/-- A round that is not the last neither ends the session nor changes its first instance. -/
theorem RoundCase.frame {rest : Option Nat} {middle : Session π β σ}
    (next : RoundCase behaviour root left session (.further rest middle)) :
    middle.finished = session.finished ∧ middle.root = session.root := by
  -- Turns frame the session, and settling one does so as well.
  cases next with
  | passes => exact ⟨launch_finished, launch_root⟩
  | polls _ _ _ _ polled =>
    obtain ⟨turn, after, goes, rfl⟩ := polled.proceeds
    have frame := goes.frame
    dsimp only at frame
    rw [frame]
    cases turn <;> exact ⟨launch_finished, launch_root⟩

/-- What a round led to within its fuel is one of the cases. -/
theorem round_case {fuel : Nat} {result : Round π β σ}
    (done : session.round behaviour root fuel left = some result) :
    RoundCase behaviour root left session result := by
  -- The cases are the branches of a round, in order.
  unfold round at done
  split at done
  · rename_i violation found
    obtain rfl := Option.some.inj done
    exact .inconsistent found
  rename_i sound
  split at done
  · rename_i code exited
    obtain rfl := Option.some.inj done
    exact .exits sound exited
  rename_i running
  dsimp only at done
  split at done
  · rename_i spent
    obtain rfl := Option.some.inj done
    rw [launch_consumedSteps]
    exact .pauses ⟨sound, running⟩ spent
  rename_i budget
  split at done
  · rename_i idle
    obtain rfl := Option.some.inj done
    exact .stalls ⟨sound, running⟩ budget idle
  rename_i id next
  split at done
  · rename_i gone
    obtain rfl := Option.some.inj done
    exact .passes ⟨sound, running⟩ budget next gone
  · rename_i task found
    obtain ⟨after, polled, rfl⟩ := Option.map_eq_some_iff.mp done
    exact .polls ⟨sound, running⟩ budget next found ⟨fuel, polled⟩

/-- A round leads to its case with any fuel that pays for its poll. -/
theorem RoundCase.exists_fuel {result : Round π β σ}
    (outcome : RoundCase behaviour root left session result) :
    ∃ least, ∀ fuel, least ≤ fuel → session.round behaviour root fuel left = some result := by
  -- Only a poll needs fuel, and it says how much.
  cases outcome with
  | inconsistent found => exact ⟨0, fun fuel _ => by simp [round, found]⟩
  | exits sound exited =>
    refine ⟨0, fun fuel _ => ?_⟩
    simp only [round, sound, exited]
    rfl
  | pauses underway spent =>
    exact ⟨0, fun fuel _ => by simp [round, underway.sound, underway.running, spent]⟩
  | stalls underway budget idle =>
    exact ⟨0, fun fuel _ => by
      simp [round, underway.sound, underway.running, budget, idle]⟩
  | passes underway budget next gone =>
    exact ⟨0, fun fuel _ => by
      simp [round, underway.sound, underway.running, budget, next, gone]⟩
  | polls underway budget next found polled =>
    obtain ⟨least, polled⟩ := polled
    refine ⟨least, fun fuel enough => ?_⟩
    simp [round, underway.sound, underway.running, budget, next, found,
      poll_mono enough polled]

/-- A round has one outcome. -/
theorem RoundCase.unique {one other : Round π β σ}
    (first : RoundCase behaviour root left session one)
    (second : RoundCase behaviour root left session other) : one = other := by
  -- Whatever the fuels were, both rounds have the greater one to spare.
  obtain ⟨least, first⟩ := first.exists_fuel
  obtain ⟨more, second⟩ := second.exists_fuel
  exact Option.some.inj ((first (max least more) (by omega)).symm.trans
    (second (max least more) (by omega)))

/-- A run from round to round up to its end. -/
inductive Runs (behaviour : Behaviour π β σ) (root : InstanceId) :
    Option Nat → Session π β σ → Run π β σ → Prop where
  | ends {left : Option Nat} {session : Session π β σ} {run : Run π β σ}
      (last : RoundCase behaviour root left session (.ends run)) :
    Runs behaviour root left session run
  | further {left rest : Option Nat} {session middle : Session π β σ} {run : Run π β σ}
      (next : RoundCase behaviour root left session (.further rest middle))
      (goes : Runs behaviour root rest middle run) :
    Runs behaviour root left session run

/-- What a run led to within its fuel is the end of its rounds. -/
theorem runs_of_rounds {fuel : Nat} {run : Run π β σ}
    (done : rounds behaviour root fuel left session = some run) :
    Runs behaviour root left session run := by
  -- The fuel counts rounds, and each round taken leaves one less.
  induction fuel generalizing left session with
  | zero => simp [rounds] at done
  | succ fuel ih =>
    simp only [rounds, Option.bind_eq_bind, Option.bind_eq_some_iff] at done
    obtain ⟨result, round, rest⟩ := done
    cases result with
    | ends last =>
      obtain rfl := Option.some.inj rest
      exact .ends (round_case round)
    | further left middle => exact .further (round_case round) (ih rest)

/-- A run comes to its end with any fuel that pays for its rounds and their polls. -/
theorem Runs.exists_fuel {run : Run π β σ} (runs : Runs behaviour root left session run) :
    ∃ least, ∀ fuel, least ≤ fuel → rounds behaviour root fuel left session = some run := by
  -- The greatest demand of any round, and one more for each round, is enough.
  induction runs with
  | ends last =>
    obtain ⟨least, done⟩ := last.exists_fuel
    refine ⟨least + 1, fun fuel enough => ?_⟩
    obtain ⟨fuel, rfl⟩ : ∃ rest, fuel = rest + 1 := ⟨fuel - 1, by omega⟩
    simp [rounds, done fuel (by omega)]
  | further next goes ih =>
    obtain ⟨least, done⟩ := next.exists_fuel
    obtain ⟨more, rest⟩ := ih
    refine ⟨max least more + 1, fun fuel enough => ?_⟩
    obtain ⟨fuel, rfl⟩ : ∃ rest, fuel = rest + 1 := ⟨fuel - 1, by omega⟩
    simp [rounds, done fuel (by omega), rest fuel (by omega)]

/-- A run that went one round further is the run from there. -/
theorem Runs.further_iff {rest : Option Nat} {middle : Session π β σ} {run : Run π β σ}
    (next : RoundCase behaviour root left session (.further rest middle)) :
    Runs behaviour root left session run ↔ Runs behaviour root rest middle run := by
  -- A round has one result, so a run that begins with it can only go on.
  refine ⟨fun runs => ?_, .further next⟩
  cases runs with
  | ends last => exact absurd (last.unique next) (by simp)
  | further other goes =>
    obtain ⟨rfl, rfl⟩ := Round.further.inj (other.unique next)
    exact goes

/-- A run whose first round is its last ends there. -/
theorem Runs.ends_iff {final run : Run π β σ}
    (last : RoundCase behaviour root left session (.ends final)) :
    Runs behaviour root left session run ↔ run = final := by
  -- A round has one result, so a run that begins with a last one is no longer.
  constructor
  · intro runs
    cases runs with
    | ends other => exact Round.ends.inj (other.unique last)
    | further next goes => exact absurd (next.unique last) (by simp)
  · rintro rfl
    exact .ends last

/-- A run has one end. -/
theorem Runs.unique {one other : Run π β σ} (first : Runs behaviour root left session one)
    (second : Runs behaviour root left session other) : one = other := by
  -- Whatever the fuels were, both runs have the greater one to spare.
  obtain ⟨least, first⟩ := first.exists_fuel
  obtain ⟨more, second⟩ := second.exists_fuel
  exact Option.some.inj ((first (max least more) (by omega)).symm.trans
    (second (max least more) (by omega)))

/-- Rounds of a run without a limit, one after another, with the instances that are polled. -/
inductive Trace (behaviour : Behaviour π β σ) (root : InstanceId) :
    List InstanceId → Session π β σ → Session π β σ → Prop where
  | nil (session : Session π β σ) : Trace behaviour root [] session session
  | passes {id : InstanceId} {ids : List InstanceId} {session after : Session π β σ}
      (underway : Underway root session)
      (next : (session.launch behaviour).nextReady = some id)
      (gone : (session.launch behaviour).task? id = none)
      (rest : Trace behaviour root ids ((session.launch behaviour).unwake id) after) :
    Trace behaviour root ids session after
  | polls {id : InstanceId} {ids : List InstanceId} {task : Task β}
      {session middle after : Session π β σ} (underway : Underway root session)
      (next : (session.launch behaviour).nextReady = some id)
      (found : (session.launch behaviour).task? id = some task)
      (polled : Polls behaviour task (session.launch behaviour) middle)
      (rest : Trace behaviour root ids middle after) :
    Trace behaviour root (id :: ids) session after

/-- A run without a limit goes on from wherever its rounds led. -/
theorem Trace.runs {ids : List InstanceId} {after : Session π β σ} {run : Run π β σ}
    (trace : Trace behaviour root ids session after) (runs : Runs behaviour root none after run) :
    Runs behaviour root none session run := by
  -- Each round of the trace is put before the run that follows.
  induction trace with
  | nil => exact runs
  | passes underway next gone _ ih =>
    exact .further (.passes underway (by simp) next gone) (ih runs)
  | polls underway next found polled _ ih =>
    exact .further (.polls underway (by simp) next found polled) (ih runs)

/-- A session returns from a run in some mode, whatever the fuel. -/
def Returns (behaviour : Behaviour π β σ) (mode : RunMode) (session : Session π β σ)
    (run : Run π β σ) : Prop :=
  ∃ fuel, session.run behaviour fuel mode = some run

/-- A session that can still run returns from the end of its rounds. -/
theorem returns_iff_runs {mode : RunMode} {run : Run π β σ} (ongoing : session.finished = none)
    (booted : session.root = some root) :
    Returns behaviour mode session run ↔ Runs behaviour root mode.limit? session run := by
  -- An answer needs some fuel, and a run says how much is enough.
  unfold Returns Session.run
  simp only [ongoing, booted]
  constructor
  · rintro ⟨fuel, done⟩
    exact runs_of_rounds done
  · intro runs
    obtain ⟨least, done⟩ := runs.exists_fuel
    exact ⟨least, done least (Nat.le_refl least)⟩

/-- What a session can return with: at once if it is over or was never begun, and else from the end
of its rounds. -/
inductive ReturnCase (behaviour : Behaviour π β σ) (mode : RunMode) (session : Session π β σ) :
    Run π β σ → Prop where
  | again {outcome : RunOutcome} (ended : session.finished = some outcome) :
    ReturnCase behaviour mode session (.ok outcome, session)
  | unbooted (ongoing : session.finished = none) (none : session.root = none) :
    ReturnCase behaviour mode session (.error (.config "no root instance booted"), session)
  | runs {root : InstanceId} {run : Run π β σ} (ongoing : session.finished = none)
      (booted : session.root = some root) (runs : Runs behaviour root mode.limit? session run) :
    ReturnCase behaviour mode session run

/-- What a session returned with is one of the cases. -/
theorem return_case {mode : RunMode} {run : Run π β σ}
    (returned : Returns behaviour mode session run) : ReturnCase behaviour mode session run := by
  cases ongoing : session.finished with
  | some outcome =>
    obtain ⟨fuel, done⟩ := returned
    simp only [Session.run, ongoing, Option.some.injEq] at done
    subst done
    exact .again ongoing
  | none =>
    cases booted : session.root with
    | none =>
      obtain ⟨fuel, done⟩ := returned
      simp only [Session.run, ongoing, booted, Option.some.injEq] at done
      subst done
      exact .unbooted ongoing booted
    | some root => exact .runs ongoing booted ((returns_iff_runs ongoing booted).mp returned)

end Progeny.Session
