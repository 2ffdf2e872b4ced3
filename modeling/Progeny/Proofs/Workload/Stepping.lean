import Progeny.Proofs.Workload.Driving
import Progeny.Proofs.Workload.Opening

/-! What running a workload comes to: always to an end, and to the same end in runs of any length as
long as the budget of steps allows it. -/

namespace Progeny.Workload

open Session

variable {workload : Workload} {config : Config} {stepsPerRun maxSteps : Option Nat}

/-- Running a workload comes to a result, with any fuel that pays for it. -/
def ComesTo (workload : Workload) (config : Config) (stepsPerRun maxSteps : Option Nat)
    (result : Except SessionError Report) : Prop :=
  ∃ least, ∀ fuel, least ≤ fuel → workload.run fuel config stepsPerRun maxSteps = some result

/-- Running a workload is to play on from where its session is opened. -/
theorem run_eq (valid : config.validate = .ok ()) (fuel : Nat) :
    workload.run fuel config stepsPerRun maxSteps =
      (playOn stepsPerRun maxSteps fuel 0 (workload.opened config)).map Prod.fst := by
  unfold run play
  rw [openSession_eq workload valid]
  dsimp only
  cases playOn stepsPerRun maxSteps fuel 0 (workload.opened config) with
  | none => rfl
  | some outcome =>
    obtain ⟨result, session⟩ := outcome
    cases result <;> rfl

/-- Running a workload comes to what its opened session plays to. -/
theorem Plays.comesTo (valid : config.validate = .ok ())
    {result : Except SessionError Report} {final : Play}
    (plays : Plays stepsPerRun maxSteps 0 (workload.opened config) (result, final)) :
    workload.ComesTo config stepsPerRun maxSteps result := by
  obtain ⟨least, done⟩ := plays
  refine ⟨least, fun fuel enough => ?_⟩
  rw [run_eq valid, done fuel enough]
  rfl

/-- In an opened session the first instance runs. -/
theorem underway_opened (workload : Workload) (config : Config) :
    Underway .root (workload.opened config) :=
  ⟨rfl, rfl⟩

/-- Without a limit an opened session runs to the exit of the first instance or to a deadlock. -/
theorem exists_end (workload : Workload) {config : Config} (valid : config.validate = .ok ()) :
    ∃ result final, Runs (behaviour Unit) .root none (workload.opened config) (result, final) ∧
      ((∃ code steps, result = .ok (.exited code steps)) ∨
        ∃ blocked, result = .error (.deadlock blocked)) := by
  have reached := reached_opened workload valid
  obtain ⟨⟨result, final⟩, runs⟩ :=
    exists_runs reached (measured_opened workload config) rfl rfl none
  refine ⟨result, final, runs, ?_⟩
  obtain ⟨middle, rest, reachedToo, -, -, last⟩ := reached.last rfl rfl runs
  cases last with
  | inconsistent found =>
    -- No session that can be reached is inconsistent.
    rw [reachedToo.orderly.sound.consistent] at found
    simp at found
  | exits => exact .inl ⟨_, _, rfl⟩
  | pauses => exact absurd rfl (runs.ne_paused _)
  | stalls => exact .inr ⟨_, rfl⟩

/-- Whatever an opened session plays to without limits is the end of one run. -/
theorem runs_of_playOn {fuel : Nat} {result : Except SessionError Report} {final : Play}
    (played : playOn none none fuel 0 (workload.opened config) = some (result, final)) :
    ∃ run, Runs (behaviour Unit) .root none (workload.opened config) run ∧
      Concludes 1 run (result, final) := by
  cases fuel with
  | zero => simp [playOn] at played
  | succ fuel =>
    simp only [playOn, Option.bind_eq_bind, Option.bind_eq_some_iff] at played
    obtain ⟨⟨outcome, after⟩, once, played⟩ := played
    have runs : Runs (behaviour Unit) .root none (workload.opened config) (outcome, after) :=
      runs_of_rounds once
    refine ⟨(outcome, after), runs, ?_⟩
    cases outcome with
    | error error =>
      obtain ⟨rfl, rfl⟩ := Prod.mk.inj (Option.some.inj played)
      exact .fails
    | ok outcome =>
      cases outcome with
      | exited code steps =>
        obtain ⟨rfl, rfl⟩ := Prod.mk.inj (Option.some.inj played)
        exact .exits
      | paused steps => exact absurd rfl (runs.ne_paused steps)

/-- Running a workload always comes to an end. Whatever its instances are to do, however long a
single run may be, and with or without a budget of steps, it comes to the exit of the first
instance, to a deadlock, or to the end of the budget. -/
theorem run_terminates (workload : Workload) {config : Config}
    (valid : config.validate = .ok ()) (stepsPerRun maxSteps : Option Nat) :
    ∃ result least,
      (∀ fuel, least ≤ fuel → workload.run fuel config stepsPerRun maxSteps = some result) ∧
      ((∃ report, result = .ok report) ∨ (∃ blocked, result = .error (.deadlock blocked)) ∨
        ∃ limit, maxSteps = some limit ∧ result = .error (.stepsExceeded limit limit)) := by
  obtain ⟨result, final, runs, kind⟩ := exists_end workload valid
  by_cases within : ∀ most, maxSteps = some most → EndsWithin (result, final) most
  · -- The one run without a limit says how it ends.
    rcases kind with ⟨code, steps, rfl⟩ | ⟨blocked, rfl⟩
    · have plays := plays_of_within stepsPerRun 0 rfl rfl runs within .exits
      obtain ⟨least, done⟩ := plays.comesTo valid
      exact ⟨_, least, done, .inl ⟨_, rfl⟩⟩
    · have plays := plays_of_within stepsPerRun 0 rfl rfl runs within .fails
      obtain ⟨least, done⟩ := plays.comesTo valid
      exact ⟨_, least, done, .inr (.inl ⟨blocked, rfl⟩)⟩
  · -- The budget is used up before.
    obtain ⟨limit, rfl, beyond⟩ : ∃ limit, maxSteps = some limit ∧
        ¬EndsWithin (result, final) limit := by simpa using within
    obtain ⟨after, plays⟩ := plays_of_beyond stepsPerRun 0 rfl rfl runs beyond (Nat.zero_le limit)
    obtain ⟨least, done⟩ := plays.comesTo valid
    exact ⟨_, least, done, .inr (.inr ⟨limit, rfl, rfl⟩)⟩

/-- A workload whose first instance is to spawn itself, through an end of a pipe that is never
created. -/
def selfSpawning : Workload where
  spawns := [⟨0, 0, []⟩, ⟨0, 0, [7]⟩]
  writes := [⟨0, 7, 0, 7, [1]⟩]

/-- A workload comes to an end even where every instance is to spawn itself twice. -/
theorem run_terminates_of_selfSpawning :
    ∃ result least,
      (∀ fuel, least ≤ fuel → selfSpawning.run fuel {} (some 2) none = some result) ∧
      ((∃ report, result = .ok report) ∨ (∃ blocked, result = .error (.deadlock blocked)) ∨
        ∃ limit, none = some limit ∧ result = .error (.stepsExceeded limit limit)) :=
  run_terminates selfSpawning rfl (some 2) none

/-- Running a workload in steps, or with a budget of them, changes nothing but the number of runs,
and the budget is exact. Let the workload without either come to an exit after some number of steps:
if that is within the budget, it comes to the same exit after as many steps and with the same
fingerprint, in as few runs as make so many steps; and if not, to the end of the budget. Let it come
to a deadlock: if there was a step to spare, it comes to the same deadlock; and if not, to the end
of the budget. -/
theorem step_driving_exact (workload : Workload) {config : Config}
    (valid : config.validate = .ok ()) (stepsPerRun maxSteps : Option Nat) :
    (∀ fuel report, workload.run fuel config none none = some (.ok report) →
      ((∀ limit, maxSteps = some limit → report.consumedSteps ≤ limit) →
        ∃ iterations, workload.ComesTo config stepsPerRun maxSteps
            (.ok { report with iterations := iterations }) ∧
          (stepsPerRun = none ∨ stepsPerRun = some 0 → iterations = 1) ∧
          ∀ steps, stepsPerRun = some steps → 0 < steps →
            iterations = (report.consumedSteps + (steps - 1)) / steps) ∧
      ∀ limit, maxSteps = some limit → limit < report.consumedSteps →
        workload.ComesTo config stepsPerRun maxSteps (.error (.stepsExceeded limit limit))) ∧
    ∀ fuel session blocked final, workload.openSession config = .ok session →
      playOn none none fuel 0 session = some (.error (.deadlock blocked), final) →
      ((∀ limit, maxSteps = some limit → final.consumedSteps < limit) →
        workload.ComesTo config stepsPerRun maxSteps (.error (.deadlock blocked))) ∧
      ∀ limit, maxSteps = some limit → limit ≤ final.consumedSteps →
        workload.ComesTo config stepsPerRun maxSteps (.error (.stepsExceeded limit limit)) := by
  constructor
  · intro fuel report done
    rw [run_eq valid, Option.map_eq_some_iff] at done
    obtain ⟨⟨result, final⟩, played, rfl⟩ := done
    obtain ⟨⟨outcome, after⟩, runs, concludes⟩ := runs_of_playOn played
    cases concludes with
    | @exits code steps =>
      obtain rfl := runs.exited_steps
      -- The first instance runs at first, so its exit takes a poll.
      have some : 0 < final.consumedSteps :=
        Nat.lt_of_not_le (runs.not_endsWithin (underway_opened workload config))
      constructor
      · intro within
        refine ⟨_, (plays_of_within _ 0 rfl rfl runs within .exits).comesTo valid, ?_, ?_⟩
        · intro whole
          rw [Nat.zero_add, runsFor_whole whole]
        · intro each perRun positive
          subst perRun
          exact (Nat.zero_add _).trans (runsFor_some positive some)
      · intro limit budget less
        subst budget
        obtain ⟨after, plays⟩ := plays_of_beyond stepsPerRun 0 rfl rfl runs
          (Nat.not_le_of_lt less) (Nat.zero_le limit)
        exact plays.comesTo valid
  · intro fuel session blocked final opens played
    obtain rfl : workload.opened config = session :=
      Except.ok.inj ((openSession_eq workload valid).symm.trans opens)
    obtain ⟨⟨outcome, after⟩, runs, concludes⟩ := runs_of_playOn played
    cases concludes
    constructor
    · intro within
      exact (plays_of_within _ 0 rfl rfl runs within .fails).comesTo valid
    · intro limit budget reached
      subst budget
      obtain ⟨after, plays⟩ := plays_of_beyond stepsPerRun 0 rfl rfl runs
        (Nat.not_lt_of_le reached) (Nat.zero_le limit)
      exact plays.comesTo valid

/-- A workload whose first instance waits for a byte from itself before it sends any. -/
def selfAwaiting : Workload where
  pipes := [⟨0, 1, 2⟩]
  writes := [⟨1, 2, 0, 1, [7]⟩]

/-- A workload whose first instance spawns a child without anything to do. -/
def minding : Workload where
  spawns := [⟨0, 1, []⟩]

/-- A workload of three steps is run two steps at a time, and not within two steps; and one that
waits in vain after its first step is stuck within two steps, but not within one. -/
theorem step_driving_exact_of_minding :
    (∃ report : Report, report.consumedSteps = 3 ∧
      minding.ComesTo {} (some 2) (some 3) (.ok { report with iterations := 2 })) ∧
      minding.ComesTo {} (some 2) (some 2) (.error (.stepsExceeded 2 2)) ∧
      (∃ blocked, selfAwaiting.ComesTo {} (some 5) (some 2) (.error (.deadlock blocked))) ∧
      selfAwaiting.ComesTo {} none (some 1) (.error (.stepsExceeded 1 1)) := by
  -- The runs without limits are evaluated, and the theorem yields the others.
  obtain ⟨report, done, steps⟩ : ∃ report : Report,
      minding.run 9 {} none none = some (.ok report) ∧ report.consumedSteps = 3 := by
    have evaluated : (minding.run 9 {} none none).map (·.map Report.consumedSteps) =
        some (.ok 3) := by decide +kernel
    obtain ⟨result, done, counted⟩ := Option.map_eq_some_iff.mp evaluated
    cases result with
    | error error => simp [Except.map] at counted
    | ok report => exact ⟨report, done, Except.ok.inj counted⟩
  obtain ⟨blocked, final, played, polls⟩ : ∃ blocked final,
      playOn none none 9 0 (selfAwaiting.opened {}) = some (.error (.deadlock blocked), final) ∧
        final.consumedSteps = 1 := by
    have evaluated : (playOn none none 9 0 (selfAwaiting.opened {})).map
        (Prod.map id Session.consumedSteps) = some (.error (.deadlock [.root]), 1) := by
      decide +kernel
    obtain ⟨⟨result, final⟩, played, counted⟩ := Option.map_eq_some_iff.mp evaluated
    obtain ⟨rfl, polls⟩ := Prod.mk.inj counted
    exact ⟨_, final, played, polls⟩
  have opens : selfAwaiting.openSession {} = .ok (selfAwaiting.opened {}) :=
    openSession_eq selfAwaiting rfl
  refine ⟨⟨report, steps, ?_⟩, ?_, ⟨blocked, ?_⟩, ?_⟩
  · obtain ⟨iterations, comes, -, runs⟩ :=
      ((step_driving_exact minding rfl (some 2) (some 3)).1 9 report done).1 (by simp [steps])
    have two : iterations = 2 := by simpa [steps] using runs 2 rfl (by decide)
    exact two ▸ comes
  · exact ((step_driving_exact minding rfl (some 2) (some 2)).1 9 report done).2 2 rfl
      (by simp [steps])
  · exact ((step_driving_exact selfAwaiting rfl (some 5) (some 2)).2 9 _ blocked final opens
      played).1 (by simp [polls])
  · exact ((step_driving_exact selfAwaiting rfl none (some 1)).2 9 _ blocked final opens
      played).2 1 rfl (by simp [polls])

end Progeny.Workload
