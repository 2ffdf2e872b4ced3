import Progeny.Proofs.Session.Thresholds
import Progeny.Proofs.Workload.Effort

/-! Running a workload some steps at a time, or with a budget of steps, comes to what one run
without a limit comes to, or to the end of the budget. -/

namespace Progeny.Workload

open Session

variable {session after final : Play} {root : InstanceId} {code : Int8} {steps : Nat}
  {stepsPerRun maxSteps : Option Nat} {iterations : Nat}
  {outcome : Except SessionError Report × Play}

/-- Runs of a session, one after another, come to an outcome with any fuel that pays for them. -/
def Plays (stepsPerRun maxSteps : Option Nat) (iterations : Nat) (session : Play)
    (outcome : Except SessionError Report × Play) : Prop :=
  ∃ least, ∀ fuel, least ≤ fuel → playOn stepsPerRun maxSteps fuel iterations session = some outcome

/-- What is left of a budget of steps. -/
abbrev leftOf (maxSteps : Option Nat) (session : Play) : Option Nat :=
  maxSteps.map (· - session.consumedSteps)

section OneRun

variable (ongoing : session.finished = none) (booted : session.root = some root)
include ongoing booted

/-- With enough fuel the next run comes to its end, and what follows depends on that only. -/
theorem exists_playOn {run : Run Workload (Except String Actor) Unit}
    (runs : Runs (behaviour Unit) root
      (nextMode stepsPerRun (leftOf maxSteps session)).limit? session run) :
    ∃ least, ∀ fuel, least ≤ fuel →
      session.run (behaviour Unit) fuel (nextMode stepsPerRun (leftOf maxSteps session)) =
        some run := by
  obtain ⟨least, done⟩ := runs.exists_fuel
  refine ⟨least, fun fuel enough => ?_⟩
  simp only [Session.run, ongoing, booted]
  exact done fuel enough

/-- An error ends it all. -/
theorem plays_of_error {error : SessionError}
    (runs : Runs (behaviour Unit) root
      (nextMode stepsPerRun (leftOf maxSteps session)).limit? session (.error error, after)) :
    Plays stepsPerRun maxSteps iterations session (.error error, after) := by
  obtain ⟨least, done⟩ := exists_playOn ongoing booted runs
  refine ⟨least + 1, fun fuel enough => ?_⟩
  obtain ⟨fuel, rfl⟩ : ∃ rest, fuel = rest + 1 := ⟨fuel - 1, by omega⟩
  simp [playOn, done fuel (by omega)]

/-- The exit of the first instance ends it all. -/
theorem plays_of_exited
    (runs : Runs (behaviour Unit) root
      (nextMode stepsPerRun (leftOf maxSteps session)).limit? session
      (.ok (.exited code steps), after)) :
    Plays stepsPerRun maxSteps iterations session
      (.ok ⟨code, steps, iterations + 1, after.capture.fingerprint⟩, after) := by
  obtain ⟨least, done⟩ := exists_playOn ongoing booted runs
  refine ⟨least + 1, fun fuel enough => ?_⟩
  obtain ⟨fuel, rfl⟩ : ∃ rest, fuel = rest + 1 := ⟨fuel - 1, by omega⟩
  simp [playOn, done fuel (by omega)]

/-- A pause at the end of the budget ends it all. -/
theorem plays_of_spent {limit : Nat}
    (runs : Runs (behaviour Unit) root
      (nextMode stepsPerRun (leftOf maxSteps session)).limit? session
      (.ok (.paused steps), after)) (budget : maxSteps = some limit) (spent : limit ≤ steps) :
    Plays stepsPerRun maxSteps iterations session
      (.error (.stepsExceeded steps limit), after) := by
  obtain ⟨least, done⟩ := exists_playOn ongoing booted runs
  have reached : maxSteps.filter (fun limit => decide (limit ≤ steps)) = some limit := by
    simp [budget, Option.filter, spent]
  refine ⟨least + 1, fun fuel enough => ?_⟩
  obtain ⟨fuel, rfl⟩ : ∃ rest, fuel = rest + 1 := ⟨fuel - 1, by omega⟩
  simp [playOn, done fuel (by omega), reached]

/-- After any other pause the next run begins. -/
theorem plays_of_paused
    (runs : Runs (behaviour Unit) root
      (nextMode stepsPerRun (leftOf maxSteps session)).limit? session
      (.ok (.paused steps), after)) (spare : ∀ limit, maxSteps = some limit → steps < limit)
    (rest : Plays stepsPerRun maxSteps (iterations + 1) after outcome) :
    Plays stepsPerRun maxSteps iterations session outcome := by
  obtain ⟨least, done⟩ := exists_playOn ongoing booted runs
  obtain ⟨more, rest⟩ := rest
  have unspent : maxSteps.filter (fun limit => decide (limit ≤ steps)) = none := by
    cases maxSteps with
    | none => rfl
    | some limit => simp [Option.filter, spare limit rfl]
  refine ⟨max least more + 1, fun fuel enough => ?_⟩
  obtain ⟨fuel, rfl⟩ : ∃ rest, fuel = rest + 1 := ⟨fuel - 1, by omega⟩
  simp [playOn, done fuel (by omega), unspent, rest fuel (by omega)]

end OneRun

/-- The limit of the next run: it is what is left of the budget, or the steps of one run where these
are no more than that. -/
theorem nextMode_case (stepsPerRun left : Option Nat) :
    ((nextMode stepsPerRun left).limit? = none ∧ left = none ∧
        stepsPerRun.filter (0 < ·) = none) ∨
      ∃ limit, (nextMode stepsPerRun left).limit? = some limit ∧
        (∀ most, left = some most → limit ≤ most) ∧
        (∀ each, stepsPerRun.filter (0 < ·) = some each → limit ≤ each) ∧
        (left = some limit ∨ stepsPerRun.filter (0 < ·) = some limit) := by
  unfold nextMode
  cases stepsPerRun.filter (0 < ·) with
  | none =>
    cases left with
    | none => exact .inl ⟨rfl, rfl, rfl⟩
    | some most =>
      refine .inr ⟨most, rfl, ?_, by simp, .inl rfl⟩
      intro other same
      exact Nat.le_of_eq (Option.some.inj same)
  | some each =>
    right
    cases left with
    | none =>
      refine ⟨each, rfl, by simp, ?_, .inr rfl⟩
      intro other same
      exact Nat.le_of_eq (Option.some.inj same)
    | some most =>
      refine ⟨min each most, rfl, ?_, ?_, ?_⟩
      · intro other same
        exact Option.some.inj same ▸ Nat.min_le_right each most
      · intro other same
        exact Option.some.inj same ▸ Nat.min_le_left each most
      · rcases Nat.le_total each most with less | less
        · exact .inr (congrArg some (Nat.min_eq_left less).symm)
        · exact .inl (congrArg some (Nat.min_eq_right less).symm)

/-- The number of runs that make so many polls, at least one. -/
def runsFor (stepsPerRun : Option Nat) (polls : Nat) : Nat :=
  match stepsPerRun.filter (0 < ·) with
  | some each => max 1 ((polls + (each - 1)) / each)
  | none => 1

/-- As many polls as one run may make take one run. -/
theorem runsFor_eq_one {polls : Nat}
    (few : ∀ each, stepsPerRun.filter (0 < ·) = some each → polls ≤ each) :
    runsFor stepsPerRun polls = 1 := by
  unfold runsFor
  split
  · rename_i each perRun
    have positive : 0 < each := by simpa using (Option.filter_eq_some_iff.mp perRun).2
    have little := few each perRun
    have quotient : (polls + (each - 1)) / each < 2 := by
      apply (Nat.div_lt_iff_lt_mul positive).mpr
      omega
    omega
  · rfl

/-- After one run that used up its steps the others make the rest of the polls. -/
theorem runsFor_add {each more : Nat} (perRun : stepsPerRun.filter (0 < ·) = some each)
    (rest : 0 < more) : runsFor stepsPerRun (each + more) = runsFor stepsPerRun more + 1 := by
  have positive : 0 < each := by simpa using (Option.filter_eq_some_iff.mp perRun).2
  have shifted : (each + more + (each - 1)) / each = (more + (each - 1)) / each + 1 := by
    rw [Nat.add_assoc, Nat.add_div_left _ positive]
  have some : 1 ≤ (more + (each - 1)) / each := by
    apply (Nat.le_div_iff_mul_le positive).mpr
    omega
  simp only [runsFor, perRun, shifted]
  omega

/-- Without steps of its own one run makes all polls. -/
theorem runsFor_whole {polls : Nat} (whole : stepsPerRun = none ∨ stepsPerRun = some 0) :
    runsFor stepsPerRun polls = 1 := by
  rcases whole with rfl | rfl <;> rfl

/-- Some polls take as many runs as their number contains the steps of one run, and one more for
what is left over. -/
theorem runsFor_some {each polls : Nat} (positive : 0 < each) (some : 0 < polls) :
    runsFor (Option.some each) polls = (polls + (each - 1)) / each := by
  have least : 1 ≤ (polls + (each - 1)) / each := by
    apply (Nat.le_div_iff_mul_le positive).mpr
    omega
  simp only [runsFor, Option.filter, positive, decide_true, if_true]
  exact Nat.max_eq_right least

/-- What is reported of a run that was the last of some number. -/
inductive Concludes (iterations : Nat) :
    Run Workload (Except String Actor) Unit → Except SessionError Report × Play → Prop where
  | exits {code : Int8} {steps : Nat} {final : Play} :
    Concludes iterations (.ok (.exited code steps), final)
      (.ok ⟨code, steps, iterations, final.capture.fingerprint⟩, final)
  | fails {error : SessionError} {final : Play} :
    Concludes iterations (.error error, final) (.error error, final)

/-- After a run that used up its steps there is one run less to count. -/
theorem Concludes.further {iterations limit before middle : Nat}
    {run : Run Workload (Except String Actor) Unit}
    (perRun : stepsPerRun.filter (0 < ·) = some limit) (count : middle = before + limit)
    (beyond : ¬EndsWithin run (before + limit))
    (concludes : Concludes (iterations + runsFor stepsPerRun (run.2.consumedSteps - before))
      run outcome) :
    Concludes (iterations + 1 + runsFor stepsPerRun (run.2.consumedSteps - middle))
      run outcome := by
  cases concludes with
  | @exits code steps final =>
    have more : before + limit < final.consumedSteps := Nat.lt_of_not_le beyond
    have split : final.consumedSteps - before = limit + (final.consumedSteps - middle) := by omega
    dsimp only
    rw [split, runsFor_add perRun (by omega), Nat.add_right_comm, ← Nat.add_assoc]
    exact .exits
  | fails => exact .fails

/-- What ends within the budget of steps is reported as it ends without one. -/
theorem plays_of_within (stepsPerRun : Option Nat) (iterations : Nat)
    {run : Run Workload (Except String Actor) Unit}
    (ongoing : session.finished = none) (booted : session.root = some root)
    (runs : Runs (behaviour Unit) root none session run)
    (within : ∀ most, maxSteps = some most → EndsWithin run most)
    (concludes : Concludes
      (iterations + runsFor stepsPerRun (run.2.consumedSteps - session.consumedSteps))
      run outcome) :
    Plays stepsPerRun maxSteps iterations session outcome := by
  -- Every run that pauses has made some of the polls that are left.
  induction left : run.2.consumedSteps - session.consumedSteps using Nat.strongRecOn
    generalizing session iterations with
  | _ left fewer =>
    obtain ⟨unlimited, -, perRun⟩ | ⟨limit, mode, most, each, kind⟩ :=
      nextMode_case stepsPerRun (leftOf maxSteps session)
    · -- One run is all.
      rw [← unlimited] at runs
      cases concludes with
      | exits =>
        rw [runsFor_eq_one (by simp [perRun])]
        exact plays_of_exited ongoing booted runs
      | fails => exact plays_of_error ongoing booted runs
    by_cases fits : EndsWithin run (session.consumedSteps + limit)
    · -- The next run is the last.
      have last := runs.within fits
      rw [← mode] at last
      cases concludes with
      | exits =>
        have bound := fits.le
        rw [runsFor_eq_one fun most perRun => by have := each most perRun; omega]
        exact plays_of_exited ongoing booted last
      | fails => exact plays_of_error ongoing booted last
    · obtain ⟨middle, paused, count, finished, first, rest⟩ := runs.beyond fits
      have spare : ∀ most, maxSteps = some most → session.consumedSteps + limit < most :=
        fun most budget => Nat.lt_of_not_le fun le => fits ((within most budget).mono le)
      -- The budget is not what ended the run, so its own steps are.
      have perRun : stepsPerRun.filter (0 < ·) = some limit := by
        apply kind.resolve_left
        intro same
        obtain ⟨most, budget, left⟩ := Option.map_eq_some_iff.mp same
        have := spare most budget
        omega
      have positive : 0 < limit := by simpa using (Option.filter_eq_some_iff.mp perRun).2
      have later := rest.consumedSteps_mono
      rw [← mode] at paused
      apply plays_of_paused ongoing booted paused spare
      exact fewer _ (by omega) (iterations + 1) (finished.trans ongoing) (first.trans booted) rest
        (concludes.further perRun count fits) rfl

/-- What does not end within the budget of steps ends with the budget. -/
theorem plays_of_beyond (stepsPerRun : Option Nat) (iterations : Nat)
    {run : Run Workload (Except String Actor) Unit} {limit : Nat}
    (ongoing : session.finished = none) (booted : session.root = some root)
    (runs : Runs (behaviour Unit) root none session run)
    (beyond : ¬EndsWithin run limit) (early : session.consumedSteps ≤ limit) :
    ∃ after, Plays stepsPerRun (some limit) iterations session
      (.error (.stepsExceeded limit limit), after) := by
  -- Every run uses up some of the budget.
  induction left : limit - session.consumedSteps using Nat.strongRecOn
    generalizing session iterations with
  | _ left fewer =>
    obtain ⟨-, unlimited, -⟩ | ⟨next, mode, most, -, kind⟩ :=
      nextMode_case stepsPerRun (leftOf (some limit) session)
    · simp at unlimited
    have bound : next ≤ limit - session.consumedSteps := most _ rfl
    have unfit : ¬EndsWithin run (session.consumedSteps + next) :=
      fun fits => beyond (fits.mono (by omega))
    obtain ⟨middle, paused, count, finished, first, rest⟩ := runs.beyond unfit
    rw [← mode] at paused
    by_cases spent : session.consumedSteps + next = limit
    · rw [spent] at paused
      exact ⟨middle, plays_of_spent ongoing booted paused rfl (Nat.le_refl limit)⟩
    · -- Less than all that was left is the steps of one run, and these are some.
      have perRun : stepsPerRun.filter (0 < ·) = some next := by
        apply kind.resolve_left
        intro same
        have all : limit - session.consumedSteps = next := Option.some.inj same
        omega
      have positive : 0 < next := by simpa using (Option.filter_eq_some_iff.mp perRun).2
      obtain ⟨after, plays⟩ := fewer (limit - middle.consumedSteps) (by omega) (iterations + 1)
        (finished.trans ongoing) (first.trans booted) rest (by omega) rfl
      refine ⟨after, plays_of_paused ongoing booted paused ?_ plays⟩
      intro most budget
      have := Option.some.inj budget
      omega

/-- Under a mode of no limit or of some steps, runs one after another lead to the exit that a single
run without a limit leads to. -/
theorem playOn_of_runs (ongoing : session.finished = none) (booted : session.root = some root)
    (runs : Runs (behaviour Unit) root none session (.ok (.exited code steps), final))
    (stepsPerRun : Option Nat) (iterations : Nat) :
    ∃ least count, ∀ fuel, least ≤ fuel → playOn stepsPerRun none fuel iterations session =
      some (.ok ⟨code, steps, count, final.capture.fingerprint⟩, final) := by
  obtain ⟨least, done⟩ : Plays stepsPerRun none iterations session _ :=
    plays_of_within _ _ ongoing booted runs (by simp) .exits
  exact ⟨least, _, done⟩

end Progeny.Workload
