import Progeny.Proofs.Session.Polls
import Progeny.Proofs.Session.Reach
import Progeny.Proofs.Session.Ready
import Progeny.Proofs.Session.Undisturbed

/-! In every session that can be reached the tables are sound, and the running instances are those
that were started and have not ended, followed by those that are to be started. -/

namespace Progeny.Session

variable {π β σ : Type} {behaviour : Behaviour π β σ} {session : Session π β σ}

/-- Tearing down what is left changes no record. -/
@[simp] theorem finish_instances (code : Int8) :
    (session.finish code).2.tables.instances = session.tables.instances := by
  obtain ⟨pipes, signals, journal, torn⟩ := Tables.foldl_teardown_eq
    (session.liveInstances ++ session.tables.launches.map Launch.id) session.tables
  simp only [finish, torn]

/-- The tables are sound, and every running instance is at one place as long as the session goes
on. -/
structure Orderly (session : Session π β σ) : Prop where
  sound : session.tables.Sound
  population : session.finished = none →
    session.liveInstances ++ session.tables.launches.map Launch.id =
      session.tables.instances.running
  emptied : session.finished ≠ none → session.tasks = []

/-- Fresh tables are sound and hold no instance. -/
theorem orderly_ofTables {config : Config} {load : Descriptor → Except CallError π}
    {keepsEvents : Bool} {tables : Tables π}
    (valid : Tables.new config load keepsEvents = .ok tables) (shared : σ) :
    (ofTables tables shared : Session π β σ).Orderly := by
  -- Where the settings are valid, the tables are empty.
  unfold Tables.new at valid
  cases validated : config.validate with
  | error error =>
    rw [validated] at valid
    simp [bind, Except.bind] at valid
  | ok passed =>
    rw [validated] at valid
    obtain rfl := Except.ok.inj valid
    exact ⟨⟨PipeRegistry.numbered_of_empty _ rfl rfl, rfl, InstanceTable.indexed_of_empty rfl rfl,
      rfl⟩, fun _ => rfl, fun _ => rfl⟩

namespace Orderly

variable (orderly : session.Orderly)
include orderly

/-- No identity is listed twice. -/
theorem nodup (ongoing : session.finished = none) :
    (session.liveInstances ++ session.tables.launches.map Launch.id).Nodup := by
  rw [orderly.population ongoing]
  refine orderly.sound.indexed.running_sorted.imp fun {one other} before same => ?_
  exact UInt64.lt_irrefl _ (same ▸ before)

/-- A started instance that has not ended runs. -/
theorem running_of_task (ongoing : session.finished = none) {task : Task β}
    (started : task ∈ session.tasks) : task.id ∈ session.tables.instances.running := by
  rw [← orderly.population ongoing]
  exact List.mem_append_left _ (List.mem_map_of_mem started)

/-- Creating the first instance adds it to those that are to be started. -/
theorem boot (descriptor : Descriptor) (argv : List Bytes) :
    (session.boot descriptor argv).2.Orderly := by
  -- A refusal changes nothing, and a first record is that of a first launch.
  unfold Session.boot
  rcases Tables.boot_case orderly.sound descriptor argv with
    ⟨error, same⟩ | ⟨program, -, empty, next, same⟩
  · rw [same]
    exact orderly
  · rw [same]
    refine ⟨⟨orderly.sound.numbered, orderly.sound.counted,
      orderly.sound.indexed.enlist (by simp [next]) _ _, orderly.sound.consistent⟩,
      fun ongoing => ?_, orderly.emptied⟩
    have population := orderly.population ongoing
    change session.liveInstances ++ (session.tables.launches ++ [_]).map Launch.id =
      (session.tables.instances.enlist none 0).running
    rw [InstanceTable.running_enlist, ← population, List.map_append, ← List.append_assoc, next]
    rfl

/-- Once there is any record, a first instance is refused. -/
theorem boot_refused (held : session.tables.instances.records ≠ []) (descriptor : Descriptor)
    (argv : List Bytes) : ∃ error, session.boot descriptor argv = (.error error, session) := by
  unfold Session.boot
  rcases Tables.boot_case orderly.sound descriptor argv with ⟨error, same⟩ | ⟨_, _, empty, -⟩
  · rw [same]
    exact ⟨error, rfl⟩
  · exact absurd empty held

/-- Where there is no record, nobody was started. -/
theorem tasks_eq_nil (empty : session.tables.instances.records = []) : session.tasks = [] := by
  by_cases ongoing : session.finished = none
  · have population := orderly.population ongoing
    simp only [InstanceTable.running, empty, List.filter_nil, List.map_nil,
      List.append_eq_nil_iff] at population
    exact List.map_eq_nil_iff.mp population.1
  · exact orderly.emptied ongoing

/-- Asking for a first instance changes nothing, or nobody was started yet. -/
theorem boot_eq_or (descriptor : Descriptor) (argv : List Bytes) :
    (session.boot descriptor argv).2 = session ∨ (session.boot descriptor argv).2.tasks = [] := by
  by_cases empty : session.tables.instances.records = []
  · refine .inr ?_
    unfold Session.boot
    split <;> exact orderly.tasks_eq_nil empty
  · obtain ⟨error, refused⟩ := orderly.boot_refused empty descriptor argv
    exact .inl (by rw [refused])

/-- Starting the created instances moves them from one list to the other. -/
theorem launch (ongoing : session.finished = none) : (session.launch behaviour).Orderly where
  -- A launch moves instances from one part of the population to the other.
  sound := by
    rw [launch_tables]
    exact ⟨orderly.sound.numbered, orderly.sound.counted, orderly.sound.indexed,
      orderly.sound.consistent⟩
  population _ := by
    simp only [liveInstances, launch_tasks, launch_tables, List.map_append, List.map_map,
      List.map_nil, List.append_nil]
    exact orderly.population ongoing
  emptied ended := by simp [ongoing] at ended

/-- Tables that somebody's calls changed fit the tasks just as well. -/
theorem effects {id : InstanceId} {tables : Tables π}
    (ongoing : session.finished = none) (effects : Tables.Effects id session.tables tables)
    (shared : σ) (woken : List InstanceId) :
    ({ session with tables := tables, shared := shared, woken := woken } :
      Session π β σ).Orderly where
  -- Whoever is spawned appears at the end of both lists.
  sound := (effects.sound orderly.sound).1
  population _ := by
    obtain ⟨-, -, new, launches, running⟩ := effects.sound orderly.sound
    change session.liveInstances ++ tables.launches.map Launch.id = tables.instances.running
    rw [running, launches, ← orderly.population ongoing, List.map_append, List.append_assoc]
  emptied ended := absurd ongoing ended

/-- Recording where an instance stands keeps the order. -/
theorem settle (ongoing : session.finished = none) {task : Task β}
    (started : task ∈ session.tasks) (turn : Turn β) : (session.settle task.id turn).Orderly := by
  -- Whoever exits leaves the tasks and the running instances at once.
  cases turn with
  | suspended state blocked =>
    refine ⟨orderly.sound, fun _ => ?_, fun ended => absurd ongoing ended⟩
    have kept : (session.settle task.id (.suspended state blocked)).liveInstances =
        session.liveInstances := by
      simp only [Session.settle, liveInstances, List.map_map]
      refine List.map_congr_left fun held _ => ?_
      by_cases same : held.id = task.id <;> simp [same]
    rw [kept]
    exact orderly.population ongoing
  | ended result =>
    have running := orderly.running_of_task ongoing started
    obtain ⟨sound, launches, rest⟩ := orderly.sound.exit running result
    refine ⟨sound, fun _ => ?_, fun ended => absurd ongoing ended⟩
    have apart := (List.nodup_append.mp (orderly.nodup ongoing)).2.2 task.id
      (List.mem_map_of_mem started)
    change (session.tasks.filter _).map Task.id ++ (session.tables.exit task.id result).launches.map
      Launch.id = (session.tables.exit task.id result).instances.running
    rw [rest, launches, ← orderly.population ongoing, List.filter_append]
    congr 1
    · simp [liveInstances, List.filter_map, Function.comp_def]
    · refine (List.filter_eq_self.mpr fun other member => ?_).symm
      simpa using (apart other member).symm

/-- A poll keeps the order. -/
theorem polls (ongoing : session.finished = none) {task : Task β} (started : task ∈ session.tasks)
    {after : Session π β σ} (polled : Polls behaviour task session after) : after.Orderly := by
  -- A poll is counted, has effects, and is settled.
  obtain ⟨turn, middle, goes, rfl⟩ := polled.proceeds
  have counted : (session.counted task.id).Orderly :=
    ⟨orderly.sound, orderly.population, orderly.emptied⟩
  have frame := goes.frame
  have effects := counted.effects ongoing goes.effects middle.shared middle.woken
  dsimp only at frame effects
  rw [← frame] at effects
  refine effects.settle ?_ ?_ turn
  · rw [frame]
    exact ongoing
  · rw [frame]
    exact started

/-- A poll disturbs nobody but its own instance. -/
theorem undisturbed (ongoing : session.finished = none) {task : Task β}
    (started : task ∈ session.tasks) {after : Session π β σ}
    (polled : Polls behaviour task session after) :
    Tables.Undisturbed task.id session.tables after.tables := by
  obtain ⟨turn, middle, goes, rfl⟩ := polled.proceeds
  obtain ⟨sound, undisturbed, new, -, runningToo⟩ := goes.effects.sound orderly.sound
  dsimp only at sound undisturbed runningToo
  cases turn with
  | suspended state blocked => exact undisturbed
  | ended result =>
    -- The calls of a poll end nobody, so its instance still runs when it exits.
    have running : task.id ∈ middle.tables.instances.running := by
      rw [runningToo]
      exact List.mem_append_left _ (orderly.running_of_task ongoing started)
    exact undisturbed.trans (.exit sound running result)

/-- Tearing down what is left keeps the tables sound. -/
theorem finish (code : Int8) : (session.finish code).2.Orderly := by
  have torn := orderly.sound.foldl_teardown
    (session.liveInstances ++ session.tables.launches.map Launch.id)
  exact ⟨⟨torn.1.numbered, torn.1.counted, torn.1.indexed, torn.1.consistent⟩,
    fun ongoing => by simp [Session.finish] at ongoing, fun _ => rfl⟩

end Orderly

/-- Every session that can be reached is in order. -/
theorem Reached.orderly (reached : Reached behaviour session) : session.Orderly := by
  -- A round launches first, so the launch comes before its cases.
  induction reached with
  | opens valid shared => exact orderly_ofTables valid shared
  | boots _ descriptor argv ih => exact ih.boot descriptor argv
  | @further session _ _ _ _ _ ongoing _ next ih =>
    have launched : (session.launch behaviour).Orderly := ih.launch ongoing
    cases next with
    | passes => exact ⟨launched.sound, launched.population, launched.emptied⟩
    | polls _ _ _ found polled =>
      exact launched.polls (launch_finished.trans ongoing) (task?_eq_some found).1 polled
  | ends _ ongoing _ last ih =>
    cases last with
    | inconsistent => exact ih
    | exits => exact ih.finish _
    | pauses | stalls => exact ih.launch ongoing

/-- A session is finished only once its first instance has exited. -/
theorem Reached.exited (reached : Reached behaviour session) (ended : session.finished ≠ none) :
    ∃ root code, session.root = some root ∧
      session.tables.instances.exitCode root = some code := by
  induction reached with
  | opens => exact absurd rfl ended
  | @boots session reached descriptor argv ih =>
    -- An instance that has exited has a record, and then no first one can be created.
    have before : session.finished ≠ none := by
      unfold boot at ended
      split at ended <;> exact ended
    obtain ⟨root, code, booted, exited⟩ := ih before
    have held : session.tables.instances.records ≠ [] := by
      intro empty
      simp [InstanceTable.exitCode, InstanceTable.find?, empty] at exited
    refine ⟨root, code, ?_⟩
    unfold boot Tables.boot
    cases session.tables.load descriptor with
    | error error => exact ⟨booted, exited⟩
    | ok program =>
      simp only [InstanceTable.allocateRoot, if_neg held]
      exact ⟨booted, exited⟩
  | further _ ongoing _ next => exact absurd (next.frame.1.trans ongoing) ended
  | @ends session after root left result reached ongoing booted last =>
    cases last with
    | inconsistent => exact absurd ongoing ended
    | @exits code sound exited =>
      refine ⟨root, code, booted, ?_⟩
      rw [finish_instances]
      exact exited
    | pauses | stalls => exact absurd (launch_finished.trans ongoing) ended

end Progeny.Session
