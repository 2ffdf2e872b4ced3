import Progeny.Proofs.Session.Limits

/-! Which limits a run fits: what it comes to under a limit follows from what it comes to without
one. -/

namespace Progeny.Session

variable {π β σ : Type} {behaviour : Behaviour π β σ} {root : InstanceId}
  {left : Option Nat} {session after : Session π β σ} {run : Run π β σ}

/-- A run ends within a number of polls of its session. An exit is seen before the limit is asked
for, and that nothing is ready is seen only after. -/
def EndsWithin (run : Run π β σ) (bound : Nat) : Prop :=
  match run.1 with
  | .error (.deadlock _) => run.2.consumedSteps < bound
  | _ => run.2.consumedSteps ≤ bound

/-- What ends within some polls ends within more. -/
theorem EndsWithin.mono {bound more : Nat} (within : EndsWithin run bound) (le : bound ≤ more) :
    EndsWithin run more := by
  unfold EndsWithin at within ⊢
  split at within <;> omega

/-- Whatever ends within some polls has made no more of them. -/
theorem EndsWithin.le {bound : Nat} (within : EndsWithin run bound) :
    run.2.consumedSteps ≤ bound := by
  unfold EndsWithin at within
  split at within <;> omega

/-- No poll is taken back. -/
theorem Runs.consumedSteps_mono (runs : Runs behaviour root left session run) :
    session.consumedSteps ≤ run.2.consumedSteps := by
  induction runs with
  | ends last =>
    -- A last round counts no poll.
    cases last with
    | inconsistent | exits => exact Nat.le_refl _
    | pauses | stalls => exact Nat.le_of_eq launch_consumedSteps.symm
  | further next _ ih =>
    apply Nat.le_trans _ ih
    cases next with
    | passes => exact Nat.le_of_eq launch_consumedSteps.symm
    | polls _ _ _ _ polled =>
      rw [polled.consumedSteps, launch_consumedSteps]
      exact Nat.le_succ _

/-- The number that is reported with an exit is that of the polls. -/
theorem Runs.exited_steps {code : Int8} {steps : Nat}
    (runs : Runs behaviour root left session (.ok (.exited code steps), after)) :
    after.consumedSteps = steps := by
  -- Rounds do not change what the run ends with, so only the last one counts.
  generalize same : (Except.ok (RunOutcome.exited code steps), after) = run at runs
  induction runs with
  | ends last =>
    cases last with
    | exits =>
      obtain ⟨outcome, rfl⟩ := Prod.mk.inj same
      exact (RunOutcome.exited.inj (Except.ok.inj outcome)).2.symm
    | inconsistent | pauses | stalls => simp at same
  | further _ _ ih => exact ih same

/-- A run without a limit does not pause. -/
theorem Runs.ne_paused (runs : Runs behaviour root none session run) (steps : Nat) :
    run.1 ≠ .ok (.paused steps) := by
  -- A pause needs a spent limit, and no round brings a limit in.
  generalize unlimited : none = left at runs
  induction runs with
  | ends last =>
    cases last with
    | inconsistent | exits | stalls => simp
    | pauses _ spent => simp [← unlimited] at spent
  | further next _ ih =>
    subst unlimited
    apply ih
    cases next <;> rfl

/-- A session pauses only while its run goes on. -/
theorem Runs.underway {steps : Nat}
    (runs : Runs behaviour root left session (.ok (.paused steps), after)) :
    Underway root after := by
  generalize same : (Except.ok (RunOutcome.paused steps), after) = run at runs
  induction runs with
  | ends last =>
    cases last with
    | pauses underway =>
      obtain ⟨-, rfl⟩ := Prod.mk.inj same
      exact underway_launch.mpr underway
    | inconsistent | exits | stalls => simp at same
  | further _ _ ih => exact ih same

/-- A run with a limit that does not pause ends within the limit. -/
theorem Runs.endsWithin {limit : Nat} (runs : Runs behaviour root (some limit) session run)
    (unpaused : ∀ steps, run.1 ≠ .ok (.paused steps)) :
    EndsWithin run (session.consumedSteps + limit) := by
  generalize spent : some limit = left at runs
  induction runs generalizing limit with
  | ends last =>
    subst spent
    cases last with
    | inconsistent | exits => exact Nat.le_add_right _ _
    | pauses => exact absurd rfl (unpaused _)
    | stalls underway budget idle =>
      -- A deadlock is found with a poll to spare.
      have spare : limit ≠ 0 := by simpa using budget
      show (launch _ _).consumedSteps < _
      rw [launch_consumedSteps]
      omega
  | further next _ ih =>
    subst spent
    obtain ⟨spared, rfl, count, -⟩ := next.beyond none
    exact count ▸ ih unpaused rfl

/-- A run of a session that goes on does not end within the polls that were made. -/
theorem Runs.not_endsWithin (runs : Runs behaviour root none session run)
    (underway : Underway root session) : ¬EndsWithin run session.consumedSteps := by
  generalize unlimited : none = left at runs
  induction runs with
  | ends last =>
    cases last with
    | inconsistent found => exact absurd (underway.sound.symm.trans found) (by simp)
    | exits _ exited => exact absurd (underway.running.symm.trans exited) (by simp)
    | pauses _ spent => simp [← unlimited] at spent
    | stalls =>
      show ¬(launch _ _).consumedSteps < _
      rw [launch_consumedSteps]
      exact Nat.lt_irrefl _
  | @further _ _ session _ _ next goes ih =>
    subst unlimited
    cases next with
    | passes =>
      -- To pass over an instance changes nothing that an exit is seen by.
      have again : Underway root (session.launch behaviour) := underway_launch.mpr underway
      have rest : ¬EndsWithin _ (session.launch behaviour).consumedSteps :=
        ih ⟨again.sound, again.running⟩ rfl
      rwa [launch_consumedSteps] at rest
    | polls _ _ _ _ polled =>
      -- The poll is one more than there were.
      intro within
      have later := goes.consumedSteps_mono
      have counted := polled.consumedSteps
      rw [launch_consumedSteps] at counted
      have bound := within.le
      omega

/-- What comes to an end without a limit comes to some end under any. -/
theorem Runs.exists_limited (runs : Runs behaviour root none session run) (limit : Nat) :
    ∃ limited, Runs behaviour root (some limit) session limited := by
  generalize unlimited : none = left at runs
  induction runs generalizing limit with
  | ends last =>
    subst unlimited
    cases last with
    | inconsistent found => exact ⟨_, .ends (.inconsistent found)⟩
    | exits sound exited => exact ⟨_, .ends (.exits sound exited)⟩
    | pauses _ spent => simp at spent
    | stalls underway _ idle =>
      -- The limit is asked for before it is found that nothing is ready.
      by_cases spent : limit = 0
      · exact ⟨_, .ends (.pauses underway (congrArg some spent))⟩
      · exact ⟨_, .ends (.stalls underway (by simpa using spent) idle)⟩
  | further next goes ih =>
    subst unlimited
    cases next with
    | passes underway _ next gone =>
      by_cases spent : limit = 0
      · exact ⟨_, .ends (.pauses underway (congrArg some spent))⟩
      · obtain ⟨limited, rest⟩ := ih limit rfl
        exact ⟨limited, .further (.passes underway (by simpa using spent) next gone) rest⟩
    | polls underway _ next found polled =>
      by_cases spent : limit = 0
      · exact ⟨_, .ends (.pauses underway (congrArg some spent))⟩
      · obtain ⟨limited, rest⟩ := ih (limit - 1) rfl
        exact ⟨limited, .further (.polls underway (by simpa using spent) next found polled) rest⟩

/-- A run that ends within a limit ends under it as it does without one. -/
theorem Runs.within {limit : Nat} (runs : Runs behaviour root none session run)
    (within : EndsWithin run (session.consumedSteps + limit)) :
    Runs behaviour root (some limit) session run := by
  obtain ⟨⟨result, after⟩, limited⟩ := runs.exists_limited limit
  by_cases pauses : ∃ steps, result = .ok (.paused steps)
  · -- A pause would be too early for what follows it.
    obtain ⟨steps, rfl⟩ := pauses
    have underway := limited.underway
    obtain ⟨polls, last, -, -, later⟩ := limited.paused
    have rest := ((later none run).mpr runs).not_endsWithin underway
    rw [last, polls] at rest
    exact absurd within rest
  · have ended := limited.ended (fun steps same => pauses ⟨steps, same⟩) none
    rwa [runs.unique ended]

/-- A run that does not end within a limit pauses at it, and goes on from there to its end. -/
theorem Runs.beyond {limit : Nat} (runs : Runs behaviour root none session run)
    (beyond : ¬EndsWithin run (session.consumedSteps + limit)) :
    ∃ after, Runs behaviour root (some limit) session
        (.ok (.paused (session.consumedSteps + limit)), after) ∧
      after.consumedSteps = session.consumedSteps + limit ∧
      after.finished = session.finished ∧ after.root = session.root ∧
      Runs behaviour root none after run := by
  obtain ⟨⟨result, after⟩, limited⟩ := runs.exists_limited limit
  by_cases pauses : ∃ steps, result = .ok (.paused steps)
  · obtain ⟨steps, rfl⟩ := pauses
    obtain ⟨rfl, last, finished, first, later⟩ := limited.paused
    exact ⟨after, limited, last, finished, first, (later none run).mpr runs⟩
  · -- Another end is that of the run without a limit, which is further off.
    have unpaused (steps : Nat) : result ≠ .ok (.paused steps) :=
      fun same => pauses ⟨steps, same⟩
    obtain rfl := runs.unique (limited.ended unpaused none)
    exact absurd (limited.endsWithin unpaused) beyond

end Progeny.Session
