import Progeny.Proofs.Workload.Engaged

/-! Sessions that run a workload: from round to round there is a cast that fits the tables, and
every instance either has just begun or waits in a call. -/

namespace Progeny.Cast

open Workload Session

variable {tree : SpawnTree} {sent : List Transmission} {cast after : Cast} {node other : Nat}
  {tables : Tables Workload} {id : InstanceId} {actor : Actor} {σ : Type}

/-- How an instance stands between its turns: it has just begun, or it waits in a call. -/
inductive Stands (tree : SpawnTree) (sent : List Transmission) (cast : Cast) (id : InstanceId)
    (node : Nat) (actor : Actor) : Option Blocked → Prop where
  | begins (idle : actor.errand = none) (free : actor.closing = none)
      (plays : cast.Plays tree sent id node .choice actor) :
    Stands tree sent cast id node actor none
  | waits {blocked : Blocked} (engaged : cast.Engaged tree sent id node actor blocked.call) :
    Stands tree sent cast id node actor (some blocked)

/-- An instance in a call has yet to do what its node has yet to do. -/
theorem Engaged.plays {call : Pending} (engaged : cast.Engaged tree sent id node actor call) :
    ∃ pursuit, cast.Plays tree sent id node pursuit actor := by
  cases engaged with
  | joins _ _ _ _ _ plays | sends _ _ _ plays | receives _ _ _ plays => exact ⟨_, plays⟩

/-- An instance in a call is spared by all others. -/
theorem Engaged.spared (coherent : cast.Coherent tree sent) {call : Pending}
    (engaged : cast.Engaged tree sent id other actor call)
    (spares : Spares tree sent node cast after) (differ : other ≠ node) :
    after.Engaged tree sent id other actor call := by
  -- Only the stage speaks of other nodes, and the stage is spared.
  cases engaged with
  | joins errand free created spawned moved plays =>
    exact .joins errand free created spawned moved (plays.spared coherent spares differ)
  | sends errand created spawned plays =>
    exact .sends errand created spawned (plays.spared coherent spares differ)
  | receives errand created spawned plays =>
    exact .receives errand created spawned (plays.spared coherent spares differ)

namespace Stands

variable {blocked : Option Blocked}

/-- Between its turns an instance has yet to do what its node has yet to do. -/
theorem plays (stands : cast.Stands tree sent id node actor blocked) :
    ∃ pursuit, cast.Plays tree sent id node pursuit actor := by
  cases stands with
  | begins _ _ plays => exact ⟨_, plays⟩
  | waits engaged => exact engaged.plays

/-- An instance is spared by all others. -/
theorem spared (coherent : cast.Coherent tree sent)
    (stands : cast.Stands tree sent id other actor blocked)
    (spares : Spares tree sent node cast after) (differ : other ≠ node) :
    after.Stands tree sent id other actor blocked := by
  -- Only the stage speaks of other nodes, and the stage is spared.
  cases stands with
  | begins idle free plays => exact .begins idle free (plays.spared coherent spares differ)
  | waits engaged => exact .waits (engaged.spared coherent spares differ)

end Stands

/-- A session is where its cast says. -/
structure Stages (tree : SpawnTree) (sent : List Transmission) (cast : Cast)
    (session : Session Workload (Except String Actor) σ) : Prop where
  fits : cast.Fits tree sent session.tables
  rooted : cast.nodes[0]? = some 0
  tasks : ∀ task ∈ session.tasks, ∃ node actor, task.state = .ok actor ∧
    cast.Stands tree sent task.id node actor task.blocked

variable {session : Session Workload (Except String Actor) σ}

/-- Instances that are started have just begun. -/
theorem Stages.launch (stages : cast.Stages tree sent session) :
    cast.Stages tree sent (session.launch (behaviour σ)) where
  -- Whoever was waiting to begin begins as its launch says.
  fits := by
    rw [launch_tables]
    have fits := stages.fits
    exact ⟨⟨fits.sound.numbered, fits.sound.counted, fits.sound.indexed, fits.sound.consistent⟩,
      ⟨fits.ample.load, fits.ample.capacity, fits.ample.endpoints, fits.ample.instances,
        fits.ample.depth⟩, fits.coherent, fits.pipes, fits.records, by simp⟩
  rooted := stages.rooted
  tasks := by
    intro task started
    rw [launch_tasks, List.mem_append, List.mem_map] at started
    rcases started with older | ⟨launch, waiting, rfl⟩
    · exact stages.tasks task older
    · obtain ⟨node, actor, begun, idle, free, plays⟩ := stages.fits.starts launch waiting
      exact ⟨node, actor, begun, .begins idle free plays⟩

/-- An instance goes on from where it stands to a good end of its turn. -/
theorem Stands.proceeds (suits : tree.Suits sent) (fits : cast.Fits tree sent session.tables)
    (launched : session.tables.launches = []) {task : Task (Except String Actor)}
    (state : task.state = .ok actor)
    (stands : cast.Stands tree sent task.id node actor task.blocked)
    {result : Turn (Except String Actor) × Session Workload (Except String Actor) σ}
    (goes : Proceeds (behaviour σ) task session result) :
    ∃ after, Advances tree sent task.id node cast after result.2.tables ∧
      after.Ending tree sent task.id node result.1 := by
  have apart : ∀ launch ∈ session.tables.launches, launch.id ≠ task.id := by simp [launched]
  cases goes with
  | free idle acts =>
    rw [idle] at stands
    cases stands with
    | begins errand free plays =>
      refine Ready.acts suits acts ?_ fits apart (.free free plays)
      simp [state, Except.bind, Actor.next, errand]
  | @answered blocked reply later _ waits retried acts =>
    rw [waits] at stands
    cases stands with
    | waits engaged =>
      -- The call has ended, and so it was tried again.
      have answer := engaged.resume suits fits apart
      unfold Tables.retry at retried
      split at retried
      · rw [retried] at answer
        cases answer with
        | finished advances onwards ready =>
          rw [state] at acts
          obtain ⟨after, advancesToo, ending⟩ :=
            Ready.acts suits acts onwards advances.fits advances.apart ready
          exact ⟨after, advances.trans advancesToo, ending⟩
      · simp at retried
  | @stays blocked still later waits retried =>
    rw [waits] at stands
    cases stands with
    | waits engaged =>
      have answer := engaged.resume suits fits apart
      rw [state]
      unfold Tables.retry at retried
      split at retried
      · rw [retried] at answer
        cases answer with
        | blocked advances engaged => exact ⟨_, advances, .waits engaged⟩
      · obtain ⟨same, rfl⟩ := Prod.mk.inj retried
        obtain rfl := Progress.blocked.inj same
        exact ⟨cast, ⟨.refl tree sent node cast, fits, apart⟩, .waits engaged⟩

/-- A poll leads to where another cast says. -/
theorem Stages.polls (suits : tree.Suits sent) (stages : cast.Stages tree sent session)
    (launched : session.tables.launches = []) {task : Task (Except String Actor)}
    (started : task ∈ session.tasks)
    {later : Session Workload (Except String Actor) σ}
    (polled : Polls (behaviour σ) task session later) :
    ∃ after : Cast, after.Stages tree sent later := by
  obtain ⟨turn, middle, goes, rfl⟩ := polled.proceeds
  obtain ⟨node, actor, state, stands⟩ := stages.tasks task started
  obtain ⟨pursuit, plays⟩ := stands.plays
  have fits : cast.Fits tree sent (session.counted task.id).tables := stages.fits
  obtain ⟨after, advances, ending⟩ := stands.proceeds suits fits launched state goes
  have tasks : middle.tasks = session.tasks := by
    rw [show middle = _ from goes.frame]
    rfl
  -- All other instances stand where they stood, as their nodes are others.
  have others {final : Cast} (spares : Spares tree sent node cast final)
      {held : Task (Except String Actor)} (there : held ∈ session.tasks)
      (differ : held.id ≠ task.id) : ∃ node actor, held.state = .ok actor ∧
        final.Stands tree sent held.id node actor held.blocked := by
    obtain ⟨other, known, state, stands⟩ := stages.tasks held there
    obtain ⟨_, playsToo⟩ := stands.plays
    refine ⟨other, known, state, stands.spared stages.fits.coherent spares ?_⟩
    rintro rfl
    exact differ (InstanceId.eq_of_toNat
      (stages.fits.coherent.place_inj playsToo.place plays.place))
  cases ending with
  | exits idle chooses =>
    have exits := advances.fits.exit chooses idle suits advances.apart
    have whole := advances.trans exits
    refine ⟨after.leave node, exits.fits, whole.spares.place stages.rooted, fun held there => ?_⟩
    simp only [settle, tasks, List.mem_filter, decide_eq_true_eq] at there
    exact others whole.spares there.1 there.2
  | @waits last still engaged =>
    refine ⟨after, advances.fits, advances.spares.place stages.rooted, fun held there => ?_⟩
    simp only [settle, tasks, List.mem_map] at there
    obtain ⟨before, member, rfl⟩ := there
    by_cases same : before.id = task.id
    · rw [if_pos same]
      exact ⟨node, last, rfl, .waits engaged⟩
    · rw [if_neg same]
      exact others advances.spares member same

/-- A round that is not the last leads to where another cast says. -/
theorem Stages.further (suits : tree.Suits sent) (stages : cast.Stages tree sent session)
    {root : InstanceId} {left rest : Option Nat}
    {later : Session Workload (Except String Actor) σ}
    (next : RoundCase (behaviour σ) root left session (.further rest later)) :
    ∃ after : Cast, after.Stages tree sent later := by
  -- A round launches first, and then it makes a poll or forgets an identity.
  have launched := stages.launch
  cases next with
  | passes => exact ⟨cast, launched.fits, launched.rooted, launched.tasks⟩
  | polls underway budget next found polled =>
    exact launched.polls suits (by simp) (task?_eq_some found).1 polled

end Progeny.Cast
