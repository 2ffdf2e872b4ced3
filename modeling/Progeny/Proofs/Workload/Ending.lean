import Progeny.Proofs.Session.Budgets
import Progeny.Proofs.Session.Orderly
import Progeny.Proofs.Workload.Effort

/-! Every run of a workload comes to an end, for its instances have less and less to do, and only so
many instances can be named. -/

namespace Progeny

/-- Replacing the one item with a key changes a sum by what that item gains or loses. -/
theorem sum_replace {α κ : Type} [DecidableEq κ] {key : α → κ} {items : List α} {item : α}
    (once : (items.map key).Nodup) (there : item ∈ items) (size : α → Nat) (other : Nat) :
    (items.map fun held => if key held = key item then other else size held).sum + size item =
      (items.map size).sum + other := by
  induction items with
  | nil => simp at there
  | cons head rest ih =>
    obtain ⟨fresh, once⟩ := List.nodup_cons.mp once
    simp only [List.map_cons, List.sum_cons]
    rcases List.mem_cons.mp there with rfl | later
    · -- No other item has the key of the first.
      have kept : (rest.map fun held => if key held = key item then other else size held) =
          rest.map size := by
        refine List.map_congr_left fun held member => if_neg fun same => ?_
        exact fresh (same ▸ List.mem_map_of_mem member)
      rw [if_pos rfl, kept]
      omega
    · have differ : key head ≠ key item := fun same => fresh (same ▸ List.mem_map_of_mem later)
      have tail := ih once later
      rw [if_neg differ]
      omega

/-- Items that are left out count for nothing. -/
theorem sum_filter {α : Type} (keeps : α → Bool) (size : α → Nat) (items : List α) :
    ((items.filter keeps).map size).sum =
      (items.map fun held => if keeps held then size held else 0).sum := by
  -- Whatever is left out counts for nothing.
  induction items with
  | nil => rfl
  | cons head rest ih =>
    rw [List.filter_cons, List.map_cons, List.sum_cons]
    cases keeps head <;> simp [ih]

namespace Workload

variable {σ : Type} {workload : Workload}

/-- The most that a new instance of a workload has to do. -/
def share (workload : Workload) : Nat :=
  workload.pipes.length + 3 * workload.spawns.length +
    (workload.writes.map fun plan => 2 * (plan.data.length + 3)).sum + 1

/-- Some transfers of a workload take no more than all of them on both ends. -/
theorem effort_transfers (writes : List WritePlan) (index : UInt64) :
    ((writes.flatMap (·.transfersOf index)).map Transfer.effort).sum ≤
      (writes.map fun plan => 2 * (plan.data.length + 3)).sum := by
  -- No actor is both ends of a write for more than the write costs.
  induction writes with
  | nil => simp
  | cons plan rest ih =>
    have own : ((plan.transfersOf index).map Transfer.effort).sum ≤ 2 * (plan.data.length + 3) := by
      rw [WritePlan.transfersOf, List.map_append, List.sum_append]
      have sends : ((if plan.writer = index then [Transfer.send plan.writerPipe plan.data]
          else []).map Transfer.effort).sum ≤ plan.data.length + 3 := by
        split <;> simp [Transfer.effort]
      have receives : ((if plan.reader = index then [Transfer.receive plan.readerPipe plan.data]
          else []).map Transfer.effort).sum ≤ plan.data.length + 3 := by
        split <;> simp [Transfer.effort]
      omega
    simp only [List.flatMap_cons, List.map_append, List.sum_append, List.map_cons, List.sum_cons]
    omega

/-- No new instance has more to do than its share. -/
theorem burdenOf_start (workload : Workload) (argv : List Bytes) :
    burdenOf (Actor.start workload argv) ≤ workload.share := by
  -- An actor has some of the pipes, some of the spawns, and some ends of the writes.
  unfold Actor.start
  cases Arguments.read argv with
  | error message => exact Nat.le_add_left 1 _
  | ok parts =>
    obtain ⟨index, held⟩ := parts
    have pipes := List.length_filter_le (fun plan => decide (plan.creator = index)) workload.pipes
    have spawns := List.length_filter_le (fun plan => decide (plan.parent = index)) workload.spawns
    have transfers := effort_transfers workload.writes index
    change _ + 1 + 0 ≤ _
    simp only [share, List.length_nil, Option.isSome_none, Bool.toNat_false]
    omega

/-- What instances have to do that are yet to be started or created. -/
def reserve (workload : Workload) (tables : Tables Workload) : Nat :=
  (tables.launches.map fun launch => burdenOf (Actor.start launch.program launch.argv)).sum +
    (2 ^ 64 - tables.instances.nextId.toNat) * workload.share

/-- There is one program. -/
theorem eq_of_resolve {descriptor : Descriptor} {program : Workload}
    (resolved : workload.programs.resolve descriptor = .ok program) : program = workload := by
  -- Only one program is registered.
  simp only [programs, ProgramRegistry.register, ProgramRegistry.resolve, ProgramRegistry.find?,
    List.filter_nil, List.nil_append] at resolved
  cases found : [(⟨Actor.descriptor.index, Actor.descriptor.source, none, workload⟩ :
      ProgramEntry Workload)].find? (ProgramRegistry.isNamedBy · descriptor) with
  | none => simp [found] at resolved
  | some entry =>
    have same := List.mem_of_find?_eq_some found
    rw [List.mem_singleton] at same
    subst same
    simp only [found, Except.ok.injEq] at resolved
    exact resolved.symm

variable {caller : InstanceId} {tables after : Tables Workload}

/-- A spawn takes the share of a new instance from those that are yet to be created, and no other
effect of a call changes what is in reserve. -/
theorem reserve_effect (sound : tables.Sound) (loads : tables.load = workload.programs.resolve)
    (effect : Tables.Effect caller tables after) :
    workload.reserve after ≤ workload.reserve tables := by
  cases effect with
  | reads | writes | joins => exact Nat.le_refl _
  | creates =>
    unfold Tables.createPipe
    dsimp only
    split <;> exact Nat.le_refl _
  | closes =>
    unfold Tables.closeEndpoint
    dsimp only
    split <;> exact Nat.le_refl _
  | spawns descriptor argv endpoints =>
    rcases Tables.spawn_case sound descriptor argv endpoints with
      ⟨error, same⟩ | ⟨program, record, loaded, -, -, -, -, named, same⟩
    · exact Nat.le_of_eq (congrArg (fun result => workload.reserve result.2) same)
    · rw [same]
      rw [loads] at loaded
      obtain rfl := eq_of_resolve loaded
      -- The next identity is one further, and so many fewer are left.
      have next : (tables.instances.nextId + 1).toNat = tables.instances.nextId.toNat + 1 := by
        have following := (sound.indexed.enlist named none 0).next
        have current := sound.indexed.next
        simp only [InstanceTable.enlist, List.length_append, List.length_singleton] at following
        omega
      have bound := tables.instances.nextId.toNat_lt
      have left : 2 ^ 64 - tables.instances.nextId.toNat =
          2 ^ 64 - (tables.instances.nextId + 1).toNat + 1 := by omega
      have own := burdenOf_start program argv
      simp only [reserve, Tables.report, InstanceTable.enlist, List.map_append, List.sum_append,
        List.map_cons, List.map_nil, List.sum_cons, List.sum_nil, left, Nat.succ_mul]
      omega

/-- Nothing that calls do adds to what is in reserve. -/
theorem reserve_effects (sound : tables.Sound) (loads : tables.load = workload.programs.resolve)
    (effects : Tables.Effects caller tables after) :
    after.load = workload.programs.resolve ∧ workload.reserve after ≤ workload.reserve tables := by
  -- Each effect starts from sound tables, since the effects before it kept them sound.
  refine ⟨(Tables.Effects.budgets sound effects).load.trans loads, ?_⟩
  induction effects with
  | refl => exact Nat.le_refl _
  | tail earlier last ih =>
    refine Nat.le_trans (reserve_effect (Tables.Effects.sound sound earlier).1 ?_ last) ih
    exact (Tables.Effects.budgets sound earlier).load.trans loads

/-- What an instance has yet to do where its turn ends. -/
def burdenAfter : Session.Turn (Except String Actor) → Nat
  | .ended _ => 0
  | .suspended state blocked => burdenOf state + (blocked.map fun held => held.call.effort).getD 0

/-- What a started instance has yet to do. -/
def burdenIn (task : Task (Except String Actor)) : Nat :=
  burdenAfter (.suspended task.state task.blocked)

/-- An instance that waits does so in a bounded call. -/
def IsMeasured (blocked : Option Blocked) : Prop :=
  ∀ held, blocked = some held → held.call.IsBounded

open Session

/-- No instance has nothing to do. -/
theorem burdenOf_pos (state : Except String Actor) : 0 < burdenOf state := by
  -- Even an actor that has nothing left to do has to exit.
  cases state with
  | error => exact Nat.one_pos
  | ok actor =>
    simp only [burdenOf, Actor.burden, Actor.effort]
    omega

/-- A turn leaves less to do than there was, and it ends in a bounded call if in any. -/
theorem burden_acts {id : InstanceId} {state : Except String Actor} {notice : Notice}
    {session : Session Workload (Except String Actor) σ}
    {result : Turn (Except String Actor) × Session Workload (Except String Actor) σ}
    (sound : session.tables.Sound) (loads : session.tables.load = workload.programs.resolve)
    (acts : Acts (behaviour σ) id state notice session result) :
    burdenAfter result.1 + workload.reserve result.2.tables <
        burdenOf state + workload.reserve session.tables ∧
      ∀ last blocked, result.1 = .suspended last blocked → IsMeasured blocked := by
  -- Each request is paid for by the actor or by the reserve, and the exit by what is left.
  induction acts with
  | @exit state | @fault state =>
    have := burdenOf_pos state
    refine ⟨?_, fun last blocked same => by simp at same⟩
    simp only [burdenAfter]
    omega
  | @finish _ _ _ session _ request _ _ _ chosen performed _ ih =>
    have effects := session.tables.effects_perform id request
    rw [performed] at effects
    have kept := reserve_effects sound loads effects
    dsimp only at kept
    have rest := ih (effects.sound sound).1 kept.1
    dsimp only at rest
    rcases burden_behaviour chosen with ⟨_, same⟩ | ⟨_, same⟩ | ⟨_, effort, -, -, less⟩
    · simp at same
    · simp at same
    · exact ⟨by omega, rest.2⟩
  | @block _ _ _ session _ request _ _ chosen performed =>
    have effects := session.tables.effects_perform id request
    rw [performed] at effects
    have kept := reserve_effects sound loads effects
    dsimp only at kept
    rcases burden_behaviour chosen with ⟨_, same⟩ | ⟨_, same⟩ | ⟨_, effort, same, bounded, less⟩
    · simp at same
    · simp at same
    · obtain rfl := Action.call.inj same
      obtain ⟨still, atMost⟩ := bounded.effort performed
      refine ⟨?_, fun last blocked same => ?_⟩
      · simp only [burdenAfter, Option.map_some, Option.getD_some]
        omega
      · obtain ⟨-, rfl⟩ := Turn.suspended.inj same
        exact fun held same => Option.some.inj same ▸ still
  | inspect chosen | wake chosen | step chosen | park chosen =>
    rcases burden_behaviour chosen with ⟨_, same⟩ | ⟨_, same⟩ | ⟨_, _, same, -⟩ <;> simp at same

/-- A session that runs nothing but a workload, in which every call that waits is bounded. -/
structure Measured (workload : Workload) (session : Session Workload (Except String Actor) σ) :
    Prop where
  loads : session.tables.load = workload.programs.resolve
  bounded : ∀ task ∈ session.tasks, IsMeasured task.blocked

/-- What all instances of a session have yet to do. -/
def total (workload : Workload) (session : Session Workload (Except String Actor) σ) : Nat :=
  (session.tasks.map burdenIn).sum + workload.reserve session.tables

variable {session : Session Workload (Except String Actor) σ}

/-- Starting instances changes neither what they have to do nor how they wait. -/
theorem Measured.launch (measured : Measured workload session) :
    Measured workload (session.launch (behaviour σ)) ∧
      workload.total (session.launch (behaviour σ)) = workload.total session := by
  -- A launch moves a share from the reserve to the task that begins.
  refine ⟨⟨by rw [launch_tables]; exact measured.loads, fun task started => ?_⟩, ?_⟩
  · rw [launch_tasks, List.mem_append, List.mem_map] at started
    rcases started with older | ⟨launch, -, rfl⟩
    · exact measured.bounded task older
    · simp [begun, IsMeasured]
  · have moved : (session.tables.launches.map fun launch => burdenIn (begun (behaviour σ) launch)) =
        session.tables.launches.map fun launch =>
          burdenOf (Actor.start launch.program launch.argv) := rfl
    simp only [total, launch_tasks, launch_tables, reserve, List.map_append, List.sum_append,
      List.map_map, Function.comp_def, moved, List.map_nil, List.sum_nil]
    omega

/-- What a poll does before its end is settled leaves less to do, or it changes nothing but the wait
of the instance. -/
theorem burden_proceeds (sound : session.tables.Sound)
    (loads : session.tables.load = workload.programs.resolve) {task : Task (Except String Actor)}
    (bounded : IsMeasured task.blocked) {turn : Turn (Except String Actor)}
    {after : Session Workload (Except String Actor) σ}
    (goes : Proceeds (behaviour σ) task session (turn, after)) :
    (∀ last blocked, turn = .suspended last blocked → IsMeasured blocked) ∧
      (burdenAfter turn + workload.reserve after.tables <
          burdenIn task + workload.reserve session.tables ∨
        ∃ still, turn = .suspended task.state (some still) ∧ after = session ∧
          burdenAfter turn = burdenIn task ∧ session.tables.isOver still.wait = false) := by
  cases goes with
  | free idle acts =>
    obtain ⟨less, measured⟩ := burden_acts sound loads acts
    have own : burdenIn task = burdenOf task.state := by simp [burdenIn, burdenAfter, idle]
    exact ⟨measured, .inl (own ▸ less)⟩
  | @answered blocked reply tables _ waits retried acts =>
    have effects := session.tables.effects_retry task.id blocked
    rw [retried] at effects
    have first := reserve_effects sound loads effects
    obtain ⟨less, measured⟩ := burden_acts (effects.sound sound).1 first.1 acts
    have own : burdenOf task.state ≤ burdenIn task := Nat.le_add_right _ _
    dsimp only at first less
    exact ⟨measured, .inl (by omega)⟩
  | @stays blocked still tables waits retried =>
    have effects := session.tables.effects_retry task.id blocked
    rw [retried] at effects
    have kept := (reserve_effects sound loads effects).2
    obtain ⟨measured, outcome⟩ := Tables.effort_retry (bounded blocked waits) retried
    have before : burdenIn task = burdenOf task.state + blocked.call.effort := by
      simp [burdenIn, burdenAfter, waits]
    have now : burdenAfter (.suspended task.state (some still)) =
      burdenOf task.state + still.call.effort := rfl
    refine ⟨fun last held same => ?_, ?_⟩
    · obtain ⟨-, rfl⟩ := Turn.suspended.inj same
      exact fun held same => Option.some.inj same ▸ measured
    · rcases outcome with less | ⟨call, rfl, waiting⟩
      · dsimp only at kept ⊢
        exact .inl (by omega)
      · exact .inr ⟨still, rfl, rfl, by rw [now, before, call], waiting⟩

/-- To settle a turn puts what is left to do after it in place of what the instance had to do. -/
theorem Measured.settle (measured : Measured workload session) (sound : session.tables.Sound)
    (once : session.liveInstances.Nodup) {task : Task (Except String Actor)}
    (started : task ∈ session.tasks) (running : task.id ∈ session.tables.instances.running)
    {turn : Turn (Except String Actor)}
    (bounded : ∀ last blocked, turn = .suspended last blocked → IsMeasured blocked) :
    Measured workload (session.settle task.id turn) ∧
      workload.total (session.settle task.id turn) + burdenIn task =
        workload.total session + burdenAfter turn := by
  have sum := sum_replace once started burdenIn (burdenAfter turn)
  cases turn with
  | ended result =>
    -- Whoever exits keeps nothing in reserve, and its task is gone.
    have exited := Tables.exit_eq sound running result
    refine ⟨⟨?_, fun other there => ?_⟩, ?_⟩
    · simp only [Session.settle, exited]
      exact measured.loads
    · exact measured.bounded other (List.mem_filter.mp there).1
    · have left : workload.reserve (session.tables.exit task.id result) =
          workload.reserve session.tables := by
        rw [exited]
        rfl
      simp only [burdenAfter] at sum
      simp only [total, Session.settle, sum_filter, left, burdenAfter]
      simp only [ne_eq, decide_not, Bool.not_eq_true', decide_eq_false_iff_not, ite_not]
      omega
  | suspended last blocked =>
    refine ⟨⟨measured.loads, fun other there => ?_⟩, ?_⟩
    · obtain ⟨held, older, rfl⟩ := List.mem_map.mp there
      by_cases same : held.id = task.id
      · rw [if_pos same]
        exact bounded last blocked rfl
      · rw [if_neg same]
        exact measured.bounded held older
    · have replaced : (session.settle task.id (.suspended last blocked)).tasks.map burdenIn =
          session.tasks.map fun held => if held.id = task.id
            then burdenAfter (.suspended last blocked) else burdenIn held := by
        simp only [Session.settle, List.map_map]
        refine List.map_congr_left fun held _ => ?_
        by_cases same : held.id = task.id <;> simp [same, burdenIn]
      rw [total, replaced]
      change _ + workload.reserve session.tables + _ = _
      rw [total]
      omega

/-- A poll leaves less to do, or it changes nothing but the wait of its instance, which is not ready
then. -/
theorem Measured.polls (measured : Measured workload session) (orderly : session.Orderly)
    (ongoing : session.finished = none) {task : Task (Except String Actor)}
    (started : task ∈ session.tasks) {after : Session Workload (Except String Actor) σ}
    (polled : Polls (behaviour σ) task session after) :
    Measured workload after ∧ (workload.total after < workload.total session ∨
      workload.total after = workload.total session ∧ after.tables.launches =
        session.tables.launches ∧
        ∀ id, id ∈ after.ready ↔ id ∈ session.ready ∧ id ≠ task.id) := by
  have once : session.liveInstances.Nodup := (List.nodup_append.mp (orderly.nodup ongoing)).1
  obtain ⟨turn, middle, goes, rfl⟩ := polled.proceeds
  have frame := goes.frame
  dsimp only at frame
  have tasks : middle.tasks = session.tasks := by
    rw [frame]
    rfl
  have counted : (session.counted task.id).tables = session.tables := rfl
  have loads : middle.tables.load = workload.programs.resolve :=
    (reserve_effects orderly.sound measured.loads goes.effects).1
  obtain ⟨sound, -, new, -, running⟩ := goes.effects.sound orderly.sound
  dsimp only at sound running
  have measuredToo : Measured workload middle :=
    ⟨loads, fun other there => measured.bounded other (tasks ▸ there)⟩
  obtain ⟨bounded, outcome⟩ := @burden_proceeds _ _ (session.counted task.id) orderly.sound
    measured.loads _ (measured.bounded task started) _ _ goes
  obtain ⟨settled, sum⟩ := measuredToo.settle sound (by rwa [liveInstances, tasks])
    (tasks.symm ▸ started)
    (running ▸ List.mem_append_left _ (orderly.running_of_task ongoing started)) bounded
  refine ⟨settled, ?_⟩
  simp only [total, tasks] at sum ⊢
  rw [counted] at outcome
  rcases outcome with less | ⟨still, rfl, same, kept, waiting⟩
  · exact .inl (by omega)
  · rw [same] at sum ⊢
    rw [counted] at sum
    exact .inr ⟨by omega, rfl, fun id => mem_ready_settle waiting⟩

/-- A round leaves less to do, or it leaves one instance less ready. -/
theorem Measured.further {root : InstanceId} {left rest : Option Nat}
    {middle : Session Workload (Except String Actor) σ} (measured : Measured workload session)
    (reached : Reached (behaviour σ) session) (ongoing : session.finished = none)
    (next : RoundCase (behaviour σ) root left session (.further rest middle)) :
    Measured workload middle ∧ (workload.total middle < workload.total session ∨
      workload.total middle = workload.total session ∧
        ∃ id ∈ (session.launch (behaviour σ)).ready, ∀ other,
          other ∈ (middle.launch (behaviour σ)).ready ↔
            other ∈ (session.launch (behaviour σ)).ready ∧ other ≠ id) := by
  obtain ⟨launched, same⟩ := measured.launch
  have orderly : (session.launch (behaviour σ)).Orderly := reached.orderly.launch ongoing
  cases next with
  | @passes id underway budget next gone =>
    refine ⟨⟨launched.loads, launched.bounded⟩, .inr ⟨same, id, mem_ready_of_nextReady next, ?_⟩⟩
    rw [launch_of_nil (by simp [unwake])]
    exact fun _ => mem_ready_unwake gone
  | @polls id task _ underway budget next found polled =>
    obtain ⟨started, rfl⟩ := task?_eq_some found
    obtain ⟨measuredToo, less | ⟨equal, launches, fewer⟩⟩ :=
      launched.polls orderly (launch_finished.trans ongoing) started polled
    · exact ⟨measuredToo, .inl (same ▸ less)⟩
    · refine ⟨measuredToo, .inr ⟨equal.trans same, task.id, mem_ready_of_nextReady next, ?_⟩⟩
      rwa [launch_of_nil (by simp [launches])]

/-- A workload comes to the end of every run, whatever the budgets and whatever it asks for. -/
theorem exists_runs {root : InstanceId} (reached : Reached (behaviour σ) session)
    (measured : Measured workload session) (ongoing : session.finished = none)
    (booted : session.root = some root) (left : Option Nat) :
    ∃ run, Runs (behaviour σ) root left session run := by
  -- A round leaves less to do, or it leaves fewer instances ready, all of them ready before.
  suffices bounded : ∀ (bound : List InstanceId)
      (session : Session Workload (Except String Actor) σ) (left : Option Nat),
      Reached (behaviour σ) session → Measured workload session → session.finished = none →
        session.root = some root → (∀ id ∈ (session.launch (behaviour σ)).ready, id ∈ bound) →
          ∃ run, Runs (behaviour σ) root left session run from
    bounded _ session left reached measured ongoing booted fun _ => id
  intro bound session left
  induction size : workload.total session using Nat.strongRecOn
    generalizing bound session left with
  | _ size smaller =>
    induction held : bound.length using Nat.strongRecOn generalizing bound session left with
    | _ length shorter =>
      intro reached measured ongoing booted within
      obtain ⟨result, outcome⟩ : ∃ result, RoundCase (behaviour σ) root left session result :=
        exists_roundCase left fun underway =>
          pollsEnd _ (reached.launch ongoing booted underway)
      cases result with
      | ends run => exact ⟨run, .ends outcome⟩
      | further rest middle =>
        have frame := outcome.frame
        have reachedToo := Reached.further reached ongoing booted outcome
        have ongoingToo := frame.1.trans ongoing
        have bootedToo := frame.2.trans booted
        obtain ⟨measuredToo, less | ⟨equal, id, ready, fewer⟩⟩ :=
          measured.further reached ongoing outcome
        · obtain ⟨run, runs⟩ := smaller _ (size ▸ less) _ middle rest rfl reachedToo measuredToo
            ongoingToo bootedToo fun _ => id
          exact ⟨run, .further outcome runs⟩
        · -- Without an instance that was ready the bound is shorter.
          have fewerBound : (bound.filter (· ≠ id)).length < length := by
            rw [← held]
            exact List.length_filter_lt_length_iff_exists.mpr ⟨id, within id ready, by simp⟩
          obtain ⟨run, runs⟩ := shorter _ fewerBound (bound.filter (· ≠ id)) middle rest
            (equal.trans size) rfl reachedToo measuredToo ongoingToo bootedToo fun other member => by
              obtain ⟨before, differ⟩ := (fewer other).mp member
              exact List.mem_filter.mpr ⟨within other before, by simpa using differ⟩
          exact ⟨run, .further outcome runs⟩

end Workload

end Progeny
