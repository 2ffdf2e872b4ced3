import Progeny.Proofs.Session.Reach
import Progeny.Proofs.Session.Ready

/-! Runs with a limit compose: pausing a run and going on later is the same as not pausing it. -/

namespace Progeny.Session

variable {π β σ : Type} {behaviour : Behaviour π β σ} {root : InstanceId}
  {session after : Session π β σ}

/-- A round goes on from started instances as it goes on before they are started. -/
theorem roundCase_launch {left : Option Nat} {result : Round π β σ}
    (underway : Underway root session) :
    RoundCase behaviour root left (session.launch behaviour) result ↔
      RoundCase behaviour root left session result := by
  -- A launch leaves nothing to launch, so a round finds the same session either way.
  have again : Underway root (session.launch behaviour) := underway_launch.mpr underway
  have same (fuel : Nat) : (session.launch behaviour).round behaviour root fuel left =
      session.round behaviour root fuel left := by
    simp [round, underway.sound, underway.running]
  constructor
  · intro outcome
    obtain ⟨least, done⟩ := outcome.exists_fuel
    exact round_case ((same least).symm.trans (done least (Nat.le_refl least)))
  · intro outcome
    obtain ⟨least, done⟩ := outcome.exists_fuel
    exact round_case ((same least).trans (done least (Nat.le_refl least)))

/-- A run goes on from started instances as it goes on before they are started. -/
theorem runs_launch {left : Option Nat} {run : Run π β σ} (underway : Underway root session) :
    Runs behaviour root left (session.launch behaviour) run ↔
      Runs behaviour root left session run := by
  -- Only the first round sees the launch.
  constructor
  · intro runs
    cases runs with
    | ends last => exact .ends ((roundCase_launch underway).mp last)
    | further next goes => exact .further ((roundCase_launch underway).mp next) goes
  · intro runs
    cases runs with
    | ends last => exact .ends ((roundCase_launch underway).mpr last)
    | further next goes => exact .further ((roundCase_launch underway).mpr next) goes

/-- A poll is counted. -/
theorem Polls.consumedSteps {task : Task β} (polled : Polls behaviour task session after) :
    after.consumedSteps = session.consumedSteps + 1 := by
  -- The step is counted before the turn, and no turn counts another.
  obtain ⟨turn, middle, goes, rfl⟩ := polled.proceeds
  have frame := goes.frame
  dsimp only at frame
  rw [frame]
  cases turn <;> rfl

/-- What may still be polled when there was a limit and now there is another beyond it, or none. -/
def beyond (limit : Nat) (extra : Option Nat) : Option Nat :=
  extra.map (limit + ·)

/-- A round of a run with a limit goes the same way under any limit beyond. -/
theorem RoundCase.beyond {limit : Nat} {rest : Option Nat} {middle : Session π β σ}
    (next : RoundCase behaviour root (some limit) session (.further rest middle))
    (extra : Option Nat) :
    ∃ spared, rest = some spared ∧
      middle.consumedSteps + spared = session.consumedSteps + limit ∧
      RoundCase behaviour root (Session.beyond limit extra) session
        (.further (Session.beyond spared extra) middle) := by
  -- A round asks only whether the limit is spent, which a greater limit is even less.
  cases next with
  | passes underway budget next gone =>
    refine ⟨limit, rfl, by simp [unwake], .passes underway ?_ next gone⟩
    cases extra <;> simp_all [Session.beyond]
  | polls underway budget next found polled =>
    have counted := polled.consumedSteps
    rw [launch_consumedSteps] at counted
    have unspent : limit ≠ 0 := by simpa using budget
    have left : (Session.beyond limit extra).map (· - 1) = Session.beyond (limit - 1) extra := by
      cases extra with
      | none => rfl
      | some more =>
        simp only [Session.beyond, Option.map_some, Option.some.injEq]
        omega
    refine ⟨limit - 1, rfl, by omega, ?_⟩
    rw [← left]
    refine .polls underway ?_ next found polled
    cases extra <;> simp_all [Session.beyond]

/-- A run that pauses has used up its limit, and to go on from there is to run with a limit
further off, or without one. -/
theorem Runs.paused {limit steps : Nat}
    (paused : Runs behaviour root (some limit) session (.ok (.paused steps), after)) :
    steps = session.consumedSteps + limit ∧ after.consumedSteps = steps ∧
      after.finished = session.finished ∧ after.root = session.root ∧
      ∀ extra run, Runs behaviour root extra after run ↔
        Runs behaviour root (beyond limit extra) session run := by
  -- Every round but the last goes the same way under the greater limit.
  generalize spent : some limit = left, same : (Except.ok (RunOutcome.paused steps), after) = run
    at paused
  induction paused generalizing limit with
  | ends last =>
    subst spent same
    cases last with
    | pauses underway spent =>
      obtain rfl : limit = 0 := by simpa using spent
      refine ⟨rfl, launch_consumedSteps, launch_finished, launch_root, fun extra run => ?_⟩
      rw [runs_launch underway]
      cases extra <;> simp [beyond]
  | further next goes ih =>
    subst spent
    obtain ⟨spared, rfl, count, -⟩ := next.beyond none
    obtain ⟨steps, last, finished, root, later⟩ := ih rfl same
    refine ⟨by omega, last, finished.trans next.frame.1, root.trans next.frame.2,
      fun extra run => ?_⟩
    obtain ⟨_, same, -, further⟩ := next.beyond extra
    obtain rfl := Option.some.inj same
    rw [later, Runs.further_iff further]

/-- A run that ends otherwise ends the same way under any limit beyond. -/
theorem Runs.ended {limit : Nat} {result : Except SessionError RunOutcome}
    (ended : Runs behaviour root (some limit) session (result, after))
    (unpaused : ∀ steps, result ≠ .ok (.paused steps)) (extra : Option Nat) :
    Runs behaviour root (beyond limit extra) session (result, after) := by
  -- Only a pause depends on the limit, and every other last round is one under any.
  generalize spent : some limit = left, same : (result, after) = run at ended
  induction ended generalizing limit with
  | ends last =>
    subst spent same
    refine .ends ?_
    cases last with
    | inconsistent found => exact .inconsistent found
    | exits sound exited => exact .exits sound exited
    | pauses => exact absurd rfl (unpaused _)
    | stalls underway budget idle =>
      refine .stalls underway ?_ idle
      cases extra <;> simp_all [beyond]
  | further next goes ih =>
    subst spent
    obtain ⟨spared, rfl, -, further⟩ := next.beyond extra
    exact .further further (ih rfl same)

/-- Every poll in every session that can be reached comes to an end. -/
def PollsEnd (behaviour : Behaviour π β σ) : Prop :=
  ∀ session, Reached behaviour session → ∀ task ∈ session.tasks,
    ∃ after, Polls behaviour task session after

/-- A round comes to one of its cases if the poll in it, if any, ends. -/
theorem exists_roundCase (left : Option Nat)
    (ending : Underway root session → ∀ task ∈ (session.launch behaviour).tasks,
      ∃ after, Polls behaviour task (session.launch behaviour) after) :
    ∃ result, RoundCase behaviour root left session result := by
  -- The cases are asked in the order in which a round asks for them.
  cases sound : session.tables.violation with
  | some violation => exact ⟨_, .inconsistent sound⟩
  | none =>
    cases running : session.tables.instances.exitCode root with
    | some code => exact ⟨_, .exits sound running⟩
    | none =>
      by_cases spent : left = some 0
      · exact ⟨_, .pauses ⟨sound, running⟩ spent⟩
      cases next : (session.launch behaviour).nextReady with
      | none => exact ⟨_, .stalls ⟨sound, running⟩ spent next⟩
      | some id =>
        cases found : (session.launch behaviour).task? id with
        | none => exact ⟨_, .passes ⟨sound, running⟩ spent next found⟩
        | some task =>
          obtain ⟨after, polled⟩ := ending ⟨sound, running⟩ task (List.mem_of_find?_eq_some found)
          exact ⟨_, .polls ⟨sound, running⟩ spent next found polled⟩

/-- Polls end if turns do, whatever an instance is told. -/
theorem pollsEnd_of_act
    (ending : ∀ id state notice (session : Session π β σ),
      ∃ fuel result, act behaviour fuel id state notice session = some result) :
    PollsEnd behaviour := by
  -- Every poll is a turn, or it is a retry that does not get so far.
  intro session _ task _
  suffices proceeded : ∃ fuel result, proceed behaviour fuel task (session.counted task.id) =
      some result by
    obtain ⟨fuel, ⟨turn, middle⟩, proceeded⟩ := proceeded
    refine ⟨middle.settle task.id turn, fuel, ?_⟩
    simp only [poll, Option.bind_eq_bind, Option.bind_eq_some_iff]
    exact ⟨_, proceeded, rfl⟩
  unfold proceed
  split
  · exact ending task.id task.state .go _
  · split
    · exact ending task.id task.state _ _
    · exact ⟨0, _, rfl⟩

/-- With a limit a run comes to an end if its polls do. -/
theorem exists_runs (ending : PollsEnd behaviour) (reached : Reached behaviour session)
    (ongoing : session.finished = none) (booted : session.root = some root) (limit : Nat) :
    ∃ run, Runs behaviour root (some limit) session run := by
  -- A round makes a poll, or it passes over an instance and leaves fewer of them made ready.
  induction limit using Nat.strongRecOn generalizing session with
  | _ limit fewer =>
    induction size : (session.launch behaviour).woken.length using Nat.strongRecOn
      generalizing session with
    | _ size smaller =>
      have ⟨result, outcome⟩ := exists_roundCase (some limit) fun underway =>
        ending _ (reached.launch ongoing booted underway)
      cases result with
      | ends run => exact ⟨run, .ends outcome⟩
      | further rest middle =>
        have frame := outcome.frame
        have reached := Reached.further reached ongoing booted outcome
        have ongoing := frame.1.trans ongoing
        have booted := frame.2.trans booted
        cases id outcome with
        | passes underway budget next gone =>
          have shorter := length_woken_unwake next gone
          obtain ⟨run, runs⟩ := smaller _ (by rwa [← size, launch_of_nil (by simp [unwake])])
            reached ongoing booted rfl
          exact ⟨run, .further outcome runs⟩
        | polls underway budget next found polled =>
          have unspent : limit ≠ 0 := by simpa using budget
          obtain ⟨run, runs⟩ := fewer (limit - 1) (by omega) reached ongoing booted
          exact ⟨run, .further outcome runs⟩

/-- Runs with a limit compose. Where every poll ends, a run with a limit ends. If it pauses, it has
made exactly as many polls as it was allowed, and a further run from there, with a limit or without
one, ends just like a single run with both limits together or without one. If it ends in any other
way, it ends that way under any greater limit, and without one. -/
theorem limited_runs_compose (ending : PollsEnd behaviour) (reached : Reached behaviour session)
    (limit more : Nat) :
    (∃ run, Returns behaviour (.limitSteps limit) session run) ∧
    (∀ steps after,
      Returns behaviour (.limitSteps limit) session (.ok (.paused steps), after) →
        steps = session.consumedSteps + limit ∧ after.consumedSteps = steps ∧
        ∀ run,
          (Returns behaviour (.limitSteps more) after run ↔
            Returns behaviour (.limitSteps (limit + more)) session run) ∧
          (Returns behaviour .unlimited after run ↔
            Returns behaviour .unlimited session run)) ∧
    ∀ result after, (∀ steps, result ≠ .ok (.paused steps)) →
      Returns behaviour (.limitSteps limit) session (result, after) →
        Returns behaviour (.limitSteps (limit + more)) session (result, after) ∧
          Returns behaviour .unlimited session (result, after) := by
  -- A session that is over, or that was never begun, answers every run in the same way.
  cases ongoing : session.finished with
  | some outcome =>
    obtain ⟨code, total, rfl⟩ := reached.finished ongoing
    have answers (mode : RunMode) (run : Run π β σ) :
        Returns behaviour mode session run ↔ run = (.ok (.exited code total), session) := by
      simp [Returns, Session.run, ongoing, eq_comm]
    simp only [answers]
    refine ⟨⟨_, rfl⟩, fun steps after paused => by simp at paused, ?_⟩
    exact fun result after _ same => ⟨same, same⟩
  | none =>
    cases booted : session.root with
    | none =>
      have answers (mode : RunMode) (run : Run π β σ) : Returns behaviour mode session run ↔
          run = (.error (.config "no root instance booted"), session) := by
        simp [Returns, Session.run, ongoing, booted, eq_comm]
      simp only [answers]
      refine ⟨⟨_, rfl⟩, fun steps after paused => by simp at paused, ?_⟩
      exact fun result after _ same => ⟨same, same⟩
    | some root =>
      simp only [returns_iff_runs ongoing booted]
      refine ⟨exists_runs ending reached ongoing booted limit, fun steps after paused => ?_, ?_⟩
      · obtain ⟨polls, last, finished, first, later⟩ := Runs.paused paused
        simp only [returns_iff_runs (finished.trans ongoing) (first.trans booted)]
        exact ⟨polls, last, fun run => ⟨later (some more) run, later none run⟩⟩
      · intro result after unpaused ended
        exact ⟨ended.ended unpaused (some more), ended.ended unpaused none⟩

/-- Instances that give up control a number of times, each time ready to go on, and then exit. -/
def lingering (rounds : Nat) : Behaviour Unit (InstanceId × Nat × Bool) Unit where
  start _ invocation := (invocation.id, rounds, false)
  next
    | (id, 0, woken), _, _ => (.exit 0, (id, 0, woken), ())
    | (id, rounds + 1, false), _, _ => (.wake id, (id, rounds + 1, true), ())
    | (id, rounds + 1, true), _, _ => (.park, (id, rounds, false), ())

/-- No turn of such an instance takes more than two actions. -/
theorem pollsEnd_lingering (rounds : Nat) : PollsEnd (lingering rounds) := by
  -- The state says how far the instance is, and that decides its next actions.
  refine pollsEnd_of_act fun id state notice session => ⟨2, ?_⟩
  obtain ⟨self, rounds, woken⟩ := state
  cases rounds with
  | zero => exact ⟨_, rfl⟩
  | succ rounds => cases woken <;> exact ⟨_, rfl⟩

/-- A run of one poll and another of two end just as one run does: with the exit of an instance that
gives up control twice. -/
theorem limited_runs_compose_of_lingering : ∃ after final,
    Returns (lingering 2) (.limitSteps 1) solo (.ok (.paused 1), after) ∧
      Returns (lingering 2) (.limitSteps 2) after (.ok (.exited 0 3), final) ∧
      Returns (lingering 2) (.limitSteps 3) solo (.ok (.exited 0 3), final) ∧
      Returns (lingering 2) .unlimited solo (.ok (.exited 0 3), final) := by
  -- The paused run and the whole run are evaluated; the theorem yields the others.
  have compose := limited_runs_compose (pollsEnd_lingering 2) (reached_solo (lingering 2))
  obtain ⟨after, paused⟩ : ∃ after, Returns (lingering 2) (.limitSteps 1) solo
      (.ok (.paused 1), after) := ⟨_, 9, rfl⟩
  obtain ⟨final, whole⟩ : ∃ final, Returns (lingering 2) (.limitSteps 3) solo
      (.ok (.exited 0 3), final) := ⟨_, 9, rfl⟩
  have rest := (((compose 1 2).2.1 _ _ paused).2.2 _).1.mpr whole
  exact ⟨after, final, paused, rest, whole, ((compose 3 0).2.2 _ _ (by simp) whole).2⟩

end Progeny.Session
