import Mathlib.Data.List.Nodup
import Progeny.Proofs.Session.Waiting

/-! A deadlock is reported exactly where every running instance is stuck in a call. -/

namespace Progeny.Session

variable {π β σ : Type} {behaviour : Behaviour π β σ} {root : InstanceId}
  {session after : Session π β σ}

/-- A task is stuck in a call. -/
def IsStuck (session : Session π β σ) (task : Task β) : Prop :=
  ∃ blocked wait, task.blocked = some blocked ∧
    session.tables.Stuck task.id blocked.call wait

/-- An instance that is not ready is stuck. -/
theorem Attentive.isStuck (attentive : session.Attentive) (sound : session.tables.Sound)
    {task : Task β} (started : task ∈ session.tasks) (idle : task.id ∉ session.ready) :
    session.IsStuck task := by
  -- An instance that is not ready is in a call, and the wait of that call is not over.
  rw [mem_ready, not_or] at idle
  cases waits : task.blocked with
  | none => exact absurd (attentive.ready task started waits) idle.1
  | some blocked =>
    have waiting : session.tables.isOver blocked.wait = false := by
      rw [Bool.eq_false_iff]
      intro passed
      refine idle.2 ⟨task, started, rfl, ?_⟩
      simpa [isReleased, waits] using passed
    exact ⟨blocked, blocked.wait, waits,
      (attentive.waits task started blocked waits).stuck sound waiting⟩

/-- A session that goes on, in which every instance was started and is stuck. -/
structure Frozen (root : InstanceId) (session : Session π β σ) : Prop where
  underway : Underway root session
  launched : session.tables.launches = []
  apart : session.liveInstances.Nodup
  stuck : ∀ task ∈ session.tasks, session.IsStuck task

namespace Frozen

/-- The call in which a stuck instance waits once it was polled again. -/
theorem exists_retry (frozen : Frozen root session) {task : Task β}
    (started : task ∈ session.tasks) :
    ∃ blocked still, task.blocked = some blocked ∧ still.call = blocked.call ∧
      session.tables.retry task.id blocked = (.blocked still, session.tables) ∧
      session.tables.isOver still.wait = false := by
  -- Should the wait be over, the call starts once more and waits in its turn.
  obtain ⟨blocked, wait, waits, stuck⟩ := frozen.stuck task started
  refine ⟨blocked, ?_⟩
  unfold Tables.retry
  cases passed : session.tables.isOver blocked.wait with
  | false => exact ⟨blocked, waits, rfl, by simp, passed⟩
  | true =>
    exact ⟨⟨blocked.call, wait⟩, waits, rfl, by simpa using stuck.resume, stuck.isOver⟩

/-- A poll of a stuck instance changes nothing but its wait, and then it is not ready. -/
theorem polls (frozen : Frozen root session) {task : Task β} (started : task ∈ session.tasks) :
    ∃ blocked still, task.blocked = some blocked ∧ still.call = blocked.call ∧
      session.tables.isOver still.wait = false ∧
      Polls behaviour task session ((session.counted task.id).settle task.id
        (.suspended task.state (some still))) := by
  -- A poll of a stuck instance is a retry that changes nothing but the wait.
  obtain ⟨blocked, still, waits, call, retried, waiting⟩ := frozen.exists_retry started
  refine ⟨blocked, still, waits, call, waiting, 0, ?_⟩
  have again : (session.counted task.id).tables.retry task.id blocked =
      (.blocked still, session.tables) := retried
  unfold counted at again
  simp only [poll, proceed, waits, again]
  rfl

/-- To pass over an instance that has ended leaves the others frozen. -/
theorem unwake (frozen : Frozen root session) (id : InstanceId) :
    Frozen root (session.unwake id) :=
  ⟨⟨frozen.underway.sound, frozen.underway.running⟩, frozen.launched, frozen.apart, frozen.stuck⟩

/-- A poll of a stuck instance leaves all of them frozen, and makes this one wait. -/
theorem settle (frozen : Frozen root session) {task : Task β} (started : task ∈ session.tasks)
    {blocked still : Blocked} (waits : task.blocked = some blocked)
    (call : still.call = blocked.call) (waiting : session.tables.isOver still.wait = false) :
    let after := (session.counted task.id).settle task.id (.suspended task.state (some still))
    Frozen root after ∧
      after.tasks.map (fun task => (task.id, task.state, task.blocked.map Blocked.call)) =
        session.tasks.map (fun task => (task.id, task.state, task.blocked.map Blocked.call)) ∧
      ∀ id, id ∈ after.ready ↔ id ∈ session.ready ∧ id ≠ task.id := by
  intro after
  -- The identity of the polled task tells it apart from all others.
  have own {other : Task β} (there : other ∈ session.tasks) (same : other.id = task.id) :
      other = task :=
    List.inj_on_of_nodup_map frozen.apart there started same
  have tasks : after.tasks = session.tasks.map fun other =>
      if other.id = task.id then ⟨task.id, task.state, some still⟩ else other := rfl
  have parts : after.tasks.map (fun task => (task.id, task.state, task.blocked.map Blocked.call)) =
      session.tasks.map (fun task => (task.id, task.state, task.blocked.map Blocked.call)) := by
    rw [tasks, List.map_map]
    refine List.map_congr_left fun other there => ?_
    by_cases same : other.id = task.id
    · obtain rfl := own there same
      simp [waits, call]
    · simp [same]
  refine ⟨⟨⟨frozen.underway.sound, frozen.underway.running⟩, frozen.launched, ?_, ?_⟩, parts, ?_⟩
  · have ids := congrArg (List.map Prod.fst) parts
    simp only [List.map_map, Function.comp_def] at ids
    unfold liveInstances
    rw [ids]
    exact frozen.apart
  · intro other there
    rw [tasks, List.mem_map] at there
    obtain ⟨held, there, rfl⟩ := there
    by_cases same : held.id = task.id
    · obtain rfl := own there same
      obtain ⟨_, wait, waitsToo, stuck⟩ := frozen.stuck held there
      obtain rfl := Option.some.inj (waits.symm.trans waitsToo)
      rw [if_pos rfl]
      refine ⟨still, wait, rfl, ?_⟩
      rw [call]
      exact stuck
    · rw [if_neg same]
      exact frozen.stuck held there
  · exact fun id => mem_ready_settle waiting

end Frozen

/-- What a session comes to when a run without a limit polls those of its instances that are ready,
each once and nobody else, and then finds that all of them are stuck. Nothing has changed but the
moments from which they wait. -/
structure PolledOut (behaviour : Behaviour π β σ) (root : InstanceId) (polled : List InstanceId)
    (session after : Session π β σ) : Prop where
  trace : Trace behaviour root polled session after
  once : polled.Nodup
  ready : ∀ id, id ∈ polled ↔ id ∈ session.ready ∧ id ∈ session.liveInstances
  stalled : Runs behaviour root none after (.error (.deadlock session.liveInstances), after)
  tables : after.tables = session.tables
  shared : after.shared = session.shared
  tasks : after.tasks.map (fun task => (task.id, task.state, task.blocked.map Blocked.call)) =
    session.tasks.map (fun task => (task.id, task.state, task.blocked.map Blocked.call))

namespace Frozen

variable {polled : List InstanceId}

/-- With nobody ready there is nobody to poll. -/
theorem stalled (frozen : Frozen root session) (idle : session.nextReady = none) :
    PolledOut behaviour root [] session session := by
  have started : session.launch behaviour = session := launch_of_nil frozen.launched
  have last : RoundCase behaviour root none session
      (.ends (.error (.deadlock session.liveInstances), session)) := by
    have stalls := RoundCase.stalls frozen.underway (Option.some_ne_none 0).symm
      (by rwa [started])
    rwa [started] at stalls
  exact ⟨.nil session, .nil, by simp [nextReady_eq_none.mp idle], .ends last, rfl, rfl, rfl⟩

/-- An identity that is passed over first is nobody's. -/
theorem passed (frozen : Frozen root session) {id : InstanceId}
    (next : session.nextReady = some id) (gone : session.task? id = none)
    (out : PolledOut behaviour root polled (session.unwake id) after) :
    PolledOut behaviour root polled session after := by
  have started : session.launch behaviour = session := launch_of_nil frozen.launched
  have trace := Trace.passes frozen.underway (by rwa [started]) (by rwa [started])
    (by rw [started]; exact out.trace)
  refine ⟨trace, out.once, fun other => ?_, out.stalled, out.tables, out.shared, out.tasks⟩
  rw [out.ready, mem_ready_unwake gone]
  refine ⟨fun both => ⟨both.1.1, both.2⟩, fun both => ⟨⟨both.1, ?_⟩, both.2⟩⟩
  rintro rfl
  exact task?_eq_none.mp gone both.2

/-- An instance that is polled first is not polled again. -/
theorem polledFirst (frozen : Frozen root session) {task : Task β} {blocked still : Blocked}
    (next : session.nextReady = some task.id) (found : session.task? task.id = some task)
    (waits : task.blocked = some blocked) (call : still.call = blocked.call)
    (waiting : session.tables.isOver still.wait = false)
    (polls : Polls behaviour task session ((session.counted task.id).settle task.id
      (.suspended task.state (some still))))
    (out : PolledOut behaviour root polled ((session.counted task.id).settle task.id
      (.suspended task.state (some still))) after) :
    PolledOut behaviour root (task.id :: polled) session after := by
  have started : session.launch behaviour = session := launch_of_nil frozen.launched
  have member := (task?_eq_some found).1
  obtain ⟨-, parts, left⟩ := frozen.settle member waits call waiting
  -- The tasks keep their identities, so the deadlock is that of the same instances.
  have live : ((session.counted task.id).settle task.id
      (.suspended task.state (some still))).liveInstances = session.liveInstances := by
    have ids := congrArg (List.map Prod.fst) parts
    simp only [List.map_map, Function.comp_def] at ids
    exact ids
  have trace := Trace.polls frozen.underway (by rwa [started]) (by rwa [started])
    (by rw [started]; exact polls) out.trace
  refine ⟨trace, ?_, fun other => ?_, live ▸ out.stalled, out.tables, out.shared,
    out.tasks.trans parts⟩
  · refine List.nodup_cons.mpr ⟨fun again => ?_, out.once⟩
    exact ((left task.id).mp ((out.ready task.id).mp again).1).2 rfl
  · rw [List.mem_cons, out.ready, left, live]
    by_cases same : other = task.id
    · subst same
      have alive : task.id ∈ session.liveInstances := List.mem_map_of_mem member
      simp [mem_ready_of_nextReady next, alive]
    · simp [same]

/-- A frozen session is polled out. -/
theorem polledOut (frozen : Frozen root session) :
    ∃ polled after, PolledOut behaviour root polled session after := by
  -- In each round one instance ceases to be ready, and none becomes ready.
  suffices bounded : ∀ (size : Nat) (bound : List InstanceId) (session : Session π β σ),
      bound.length = size → Frozen root session → (∀ id ∈ session.ready, id ∈ bound) →
        ∃ polled after, PolledOut behaviour root polled session after from
    bounded _ session.ready session rfl frozen fun _ => id
  intro size
  induction size using Nat.strongRecOn with
  | _ size smaller =>
    intro bound session length frozen within
    cases next : session.nextReady with
    | none => exact ⟨[], session, frozen.stalled next⟩
    | some id =>
      -- Without this instance the bound is smaller.
      have less : (bound.filter (· ≠ id)).length < size := by
        rw [← length]
        exact List.length_filter_lt_length_iff_exists.mpr
          ⟨id, within id (mem_ready_of_nextReady next), by simp⟩
      have without {middle : Session π β σ}
          (left : ∀ other, other ∈ middle.ready ↔ other ∈ session.ready ∧ other ≠ id) :
          ∀ other ∈ middle.ready, other ∈ bound.filter (· ≠ id) := by
        intro other member
        obtain ⟨before, differ⟩ := (left other).mp member
        exact List.mem_filter.mpr ⟨within other before, by simpa using differ⟩
      cases found : session.task? id with
      | none =>
        obtain ⟨polled, after, out⟩ := smaller _ less _ _ rfl (frozen.unwake id)
          (without fun _ => mem_ready_unwake found)
        exact ⟨polled, after, frozen.passed next found out⟩
      | some task =>
        obtain ⟨member, rfl⟩ := task?_eq_some found
        obtain ⟨blocked, still, waits, call, waiting, polls⟩ := frozen.polls member
        obtain ⟨frozenToo, -, left⟩ := frozen.settle member waits call waiting
        obtain ⟨polled, after, out⟩ := smaller _ less _ _ rfl frozenToo (without left)
        exact ⟨task.id :: polled, after,
          frozen.polledFirst next found waits call waiting polls out⟩

end Frozen

/-- No wake-up is lost, and a deadlock is no false alarm. Of instances that wait in calls only, each
that is not ready is stuck. So a run reports a deadlock of exactly the running instances, in
ascending order and each of them stuck, and any further run with a poll to spare reports it again
and changes nothing. And where the first instance runs, none is to be started and all that were
started are stuck, a run polls the ready ones once each and then reports a deadlock. -/
theorem no_lost_wakeup (sequential : behaviour.IsSequential)
    (reached : Reached behaviour session) :
    (∀ task ∈ session.tasks, task.id ∉ session.ready → session.IsStuck task) ∧
    (∀ mode blocked after,
      Returns behaviour mode session (.error (.deadlock blocked), after) →
        blocked = after.tables.instances.running ∧
        (blocked.Pairwise fun one other => one.word < other.word) ∧
        (∀ id ∈ blocked, ∃ task ∈ after.tasks, task.id = id ∧ after.IsStuck task) ∧
        ∀ again, again ≠ .limitSteps 0 → ∀ run,
          Returns behaviour again after run ↔ run = (.error (.deadlock blocked), after)) ∧
    ∀ root, session.root = some root → root ∈ session.tables.instances.running →
      session.tables.launches = [] → (∀ task ∈ session.tasks, session.IsStuck task) →
        ∃ polled after, PolledOut behaviour root polled session after ∧ ∀ run,
          Returns behaviour .unlimited session run ↔
            run = (.error (.deadlock session.liveInstances), after) := by
  have orderly := reached.orderly
  refine ⟨fun task started idle =>
    (reached.attentive sequential).isStuck orderly.sound started idle, ?_, ?_⟩
  · intro mode blocked after returned
    obtain ⟨root, middle, rest, come, ongoing, booted, last⟩ := reached.last_of_deadlock returned
    -- The last round started what was created and found nobody ready.
    cases last with
    | stalls underway budget idle =>
      have launched := come.launch ongoing booted underway
      have order := launched.orderly
      have ongoing : (middle.launch behaviour).finished = none := launch_finished.trans ongoing
      have booted : (middle.launch behaviour).root = some root := launch_root.trans booted
      have population := order.population ongoing
      rw [launch_tables] at population
      simp only [List.map_nil, List.append_nil] at population
      refine ⟨by rw [launch_tables]; exact population, ?_, ?_, ?_⟩
      · rw [population]
        exact come.orderly.sound.indexed.running_sorted
      · intro id live
        obtain ⟨task, started, rfl⟩ := List.mem_map.mp live
        refine ⟨task, started, rfl, ?_⟩
        refine (launched.attentive sequential).isStuck order.sound started ?_
        simp [nextReady_eq_none.mp idle]
      · intro again unspent run
        rw [returns_iff_runs ongoing booted]
        have some : again.limit? ≠ some 0 := by cases again <;> simp_all [RunMode.limit?]
        have underway : Underway root (middle.launch behaviour) := underway_launch.mpr underway
        have stalls := RoundCase.stalls underway some (by rw [launch_launch]; exact idle)
        rw [launch_launch] at stalls
        exact Runs.ends_iff stalls
  · intro root booted running launched stuck
    obtain ⟨record, found, state⟩ := orderly.sound.indexed.mem_running.mp running
    have unexited : session.tables.instances.exitCode root = none := by
      simp [InstanceTable.exitCode, found, state, Lifecycle.exitCode]
    have underway : Underway root session := ⟨orderly.sound.consistent, unexited⟩
    have ongoing : session.finished = none := by
      by_cases ended : session.finished = none
      · exact ended
      · obtain ⟨first, code, same, exited⟩ := reached.exited ended
        obtain rfl := Option.some.inj (booted.symm.trans same)
        simp [unexited] at exited
    have apart := (List.nodup_append.mp (orderly.nodup ongoing)).1
    have frozen : Frozen root session := ⟨underway, launched, apart, stuck⟩
    obtain ⟨polled, after, out⟩ := frozen.polledOut
    refine ⟨polled, after, out, fun run => ?_⟩
    rw [returns_iff_runs ongoing booted]
    have ends := out.trace.runs out.stalled
    exact ⟨fun runs => runs.unique ends, fun same => same ▸ ends⟩

/-- Instances that read from a pipe which only they could write to. -/
def listening : Behaviour Unit Unit Unit where
  start _ _ := ()
  next
    | _, _, .reply (.ok (.endpoints first _)) => (.call (.read first 1), (), ())
    | _, _, _ => (.call .pipe, (), ())

/-- A deadlock of such an instance is reported again and again. -/
theorem no_lost_wakeup_of_listening : ∃ after,
    Returns listening .unlimited solo (.error (.deadlock [.root]), after) ∧
      (∃ task ∈ after.tasks, task.id = .root ∧ after.IsStuck task) ∧
      Returns listening (.limitSteps 1) after (.error (.deadlock [.root]), after) := by
  -- The run is evaluated, and the theorem is then applied to what it returned.
  have sequential : listening.IsSequential := by
    intro state shared notice
    unfold listening
    dsimp only
    split <;> simp
  obtain ⟨after, returned⟩ : ∃ after, Returns listening .unlimited solo
      (.error (.deadlock [.root]), after) := ⟨_, 9, rfl⟩
  have alarm := (no_lost_wakeup sequential (reached_solo listening)).2.1 _ _ _ returned
  exact ⟨after, returned, alarm.2.2.1 .root (by simp),
    (alarm.2.2.2 (.limitSteps 1) (by simp) _).mpr rfl⟩

end Progeny.Session
