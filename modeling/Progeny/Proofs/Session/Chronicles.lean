import Progeny.Proofs.Session.History
import Progeny.Proofs.Session.Memoirs

/-! The diaries of a session tell the truth, whatever its programs are: all that instances were told
is so by the records, and of everybody who has exited there is a memoir that tells how. -/

namespace Progeny

variable {π β σ : Type}

namespace Tables

variable {tables after : Tables π} {caller : InstanceId} {request : Request} {progress : Progress}

/-- Instances descend from the first one, and whoever is yet to be started has a program that was
found, and no children. -/
structure Peopled (tables : Tables π) : Prop where
  lineage : tables.instances.Lineage
  loaded : ∀ launch ∈ tables.launches,
    ∃ descriptor, tables.load descriptor = .ok launch.program
  childless : ∀ launch ∈ tables.launches, tables.instances.childrenOf launch.id = []

/-- Somebody runs, and is none of those who are yet to be started. -/
structure Acting (caller : InstanceId) (tables : Tables π) : Prop where
  sound : tables.Sound
  running : caller ∈ tables.instances.running
  peopled : tables.Peopled
  apart : ∀ launch ∈ tables.launches, launch.id ≠ caller

/-- Somebody who runs does something, and goes on to run. -/
structure Develops (caller : InstanceId) (tables after : Tables π) : Prop where
  acting : after.Acting caller
  spared : tables.instances.Spared caller after.instances
  load : after.load = tables.load

theorem Develops.trans {middle : Tables π} (first : Develops caller tables middle)
    (second : Develops caller middle after) : Develops caller tables after :=
  ⟨second.acting, first.spared.trans second.spared, second.load.trans first.load⟩

namespace Acting

variable (acting : tables.Acting caller)
include acting

theorem refl : Develops caller tables tables :=
  ⟨acting, .refl caller _, rfl⟩

/-- A call that changes neither records nor what is to be started. -/
theorem keeps (sound : after.Sound) (instances : after.instances = tables.instances)
    (launches : after.launches = tables.launches) (load : after.load = tables.load) :
    Develops caller tables after := by
  refine ⟨⟨sound, ?_, ⟨?_, ?_, ?_⟩, ?_⟩, ?_, load⟩
  · rw [instances]
    exact acting.running
  · rw [instances]
    exact acting.peopled.lineage
  · rw [launches, load]
    exact acting.peopled.loaded
  · rw [launches, instances]
    exact acting.peopled.childless
  · rw [launches]
    exact acting.apart
  · rw [instances]
    exact .refl caller _

/-- A call that adds a child of the caller, which is to be started and has no children. -/
theorem creates (sound : after.Sound) {record : InstanceRecord} {launch : Launch π}
    {descriptor : Descriptor} (found : tables.instances.find? caller = some record)
    (named : tables.instances.nextId + 1 ≠ 0)
    (loaded : tables.load descriptor = .ok launch.program)
    (own : launch.id = ⟨tables.instances.nextId⟩)
    (instances : after.instances = tables.instances.enlist (some caller) (record.depth + 1))
    (launches : after.launches = tables.launches ++ [launch]) (load : after.load = tables.load) :
    Develops caller tables after := by
  have indexed := acting.sound.indexed
  have fresh : launch.id ≠ caller := by
    rw [own]
    rintro rfl
    refine indexed.next_notMem ?_
    rw [← indexed.id_of_find? found]
    exact List.mem_map_of_mem (List.mem_of_find?_eq_some found)
  have children (id : InstanceId) (differ : caller ≠ id) :
      after.instances.childrenOf id = tables.instances.childrenOf id := by
    rw [instances, InstanceTable.childrenOf_enlist, if_neg (by simpa using differ),
      List.append_nil]
  -- Whoever is to be started was so before, or is the new child.
  have each {held : Launch π} (there : held ∈ after.launches) :
      held ∈ tables.launches ∨ held = launch := by
    rw [launches, List.mem_append, List.mem_singleton] at there
    exact there
  refine ⟨⟨sound, ?_, ⟨?_, fun held there => ?_, fun held there => ?_⟩, fun held there => ?_⟩,
    ?_, load⟩
  · rw [instances, InstanceTable.running_enlist]
    exact List.mem_append_left _ acting.running
  · rw [instances]
    exact acting.peopled.lineage.enlist indexed found _
  · rw [load]
    rcases each there with older | rfl
    · exact acting.peopled.loaded held older
    · exact ⟨descriptor, loaded⟩
  · rcases each there with older | rfl
    · rw [children _ (acting.apart held older).symm]
      exact acting.peopled.childless held older
    · rw [children _ fresh.symm, own]
      exact acting.peopled.lineage.childrenOf_next indexed
  · rcases each there with older | rfl
    · exact acting.apart held older
    · exact fresh
  · rw [instances]
    exact .enlist indexed named caller _

/-- Whatever is asked for leaves people in order, and adds a child of the caller at most. -/
theorem perform (performed : tables.perform caller request = (progress, after)) :
    Develops caller tables after ∧ after.instances.childrenOf caller =
      tables.instances.childrenOf caller ++ (created? request progress).toList := by
  have effects := tables.effects_perform caller request
  rw [performed] at effects
  have sound := (effects.sound acting.sound).1
  obtain ⟨peoples, load⟩ := (CallCase.of_perform acting.sound performed).peoples acting.sound
  cases peoples with
  | keeps childless instances launches =>
    refine ⟨acting.keeps sound instances launches load, ?_⟩
    rw [childless, instances]
    simp
  | creates child found named loaded own instances launches =>
    refine ⟨acting.creates sound found named loaded own instances launches load, ?_⟩
    rw [child, instances, InstanceTable.childrenOf_enlist, if_pos rfl]
    rfl

/-- A further attempt at a call changes no record. -/
theorem retry {blocked : Blocked}
    (retried : tables.retry caller blocked = (progress, after)) :
    Develops caller tables after ∧ after.instances = tables.instances := by
  unfold Tables.retry at retried
  split at retried
  · obtain ⟨sound, instances, -, launches, load, -⟩ :=
      (Exchanges.of_resume retried).keeps acting.sound
    exact ⟨acting.keeps sound instances launches load, instances⟩
  · obtain ⟨-, rfl⟩ := Prod.mk.inj retried
    exact ⟨acting.refl, rfl⟩

end Acting

/-- The exit of somebody leaves people in order, everybody else as they were, and all children with
their parents. -/
theorem Acting.exit (acting : tables.Acting caller) (result : Except String Int8) :
    (tables.exit caller result).Peopled ∧
      tables.instances.Spared caller (tables.exit caller result).instances ∧
      (tables.exit caller result).load = tables.load ∧
      ∀ id, (tables.exit caller result).instances.childrenOf id =
        tables.instances.childrenOf id := by
  rw [exit_eq acting.sound acting.running result]
  refine ⟨⟨acting.peopled.lineage.retire _ _ _, acting.peopled.loaded, ?_⟩,
    .retire acting.sound.indexed acting.running _ _, rfl,
    fun _ => InstanceTable.childrenOf_retire ..⟩
  intro launch there
  rw [InstanceTable.childrenOf_retire]
  exact acting.peopled.childless launch there

/-- The record of somebody who has exited tells how. -/
theorem Acting.exited (acting : tables.Acting caller) (result : Except String Int8) :
    ∃ record, (tables.exit caller result).instances.find? caller = some record ∧
      record.state = .exited (ending result).1 ∧ record.fault = (ending result).2 := by
  obtain ⟨record, found, -⟩ := acting.sound.indexed.mem_running.mp acting.running
  rw [exit_eq acting.sound acting.running result]
  refine ⟨{ record with state := .exited (ending result).1, fault := (ending result).2 }, ?_, rfl,
    rfl⟩
  show (tables.instances.retire _ _ _).find? caller = _
  rw [acting.sound.indexed.find?_retire, found]
  simp

/-- Whoever runs has no exit code. -/
theorem Acting.exitCode (acting : tables.Acting caller) :
    tables.instances.exitCode caller = none := by
  cases exited : tables.instances.exitCode caller with
  | none => rfl
  | some code => exact absurd acting.running (acting.sound.indexed.notMem_running exited)

end Tables

/-- A diary tells the truth, and about its last call as well. -/
structure Diary.Truthful (behaviour : Behaviour π β σ) (tables : Tables π) (diary : Diary β)
    (blocked : Option Blocked) : Prop where
  kept : diary.Kept behaviour tables.load
  vouched : diary.dialogue.Vouched tables.instances diary.invocation.id
  idle : blocked = none → diary.asked = none
  waits : ∀ waiting, blocked = some waiting →
    ∃ request, diary.asked = some request ∧ waiting.call.Serves request

/-- A memoir tells the truth. -/
structure Memoir.Truthful (behaviour : Behaviour π β σ) (tables : Tables π) (memoir : Memoir) :
    Prop where
  kept : memoir.Kept behaviour tables.load
  vouched : memoir.dialogue.Vouched tables.instances memoir.invocation.id

section Truth

variable {behaviour : Behaviour π β σ} {tables after : Tables π} {caller : InstanceId}
  (spared : tables.instances.Spared caller after.instances) (load : after.load = tables.load)
include spared load

/-- What others do leaves a diary true. -/
theorem Diary.Truthful.later {diary : Diary β} {blocked : Option Blocked}
    (truthful : diary.Truthful behaviour tables blocked) (differ : diary.invocation.id ≠ caller) :
    diary.Truthful behaviour after blocked :=
  ⟨by rw [load]; exact truthful.kept, truthful.vouched.spared spared differ, truthful.idle,
    truthful.waits⟩

/-- What others do leaves a memoir true. -/
theorem Memoir.Truthful.later {memoir : Memoir} (truthful : memoir.Truthful behaviour tables)
    (differ : memoir.invocation.id ≠ caller) : memoir.Truthful behaviour after :=
  ⟨by rw [load]; exact truthful.kept, truthful.vouched.spared spared differ⟩

end Truth

/-- Whoever waits for the answer to what it asked for keeps a true diary, if it has created nobody
meanwhile. -/
theorem Diary.Truthful.waiting {behaviour : Behaviour π β σ} {tables after : Tables π}
    {id : InstanceId} {diary : Diary β} {request : Request} {blocked : Blocked}
    (kept : diary.Kept behaviour tables.load) (own : diary.invocation.id = id)
    (vouched : diary.dialogue.Vouched tables.instances id) (asked : diary.asked = some request)
    (develops : tables.Develops id after) (serves : blocked.call.Serves request)
    (children : after.instances.childrenOf id = tables.instances.childrenOf id) :
    diary.Truthful behaviour after (some blocked) := by
  refine ⟨?_, ⟨fun exchange there => ?_, ?_⟩, by simp, fun waiting same => ?_⟩
  · rw [develops.load]
    exact kept
  · exact (vouched.answered exchange there).later develops.spared.exitCode
  · rw [own, children]
    exact vouched.spawned
  · obtain rfl := Option.some.inj same
    exact ⟨request, asked, serves⟩

namespace Session

variable {behaviour : Behaviour π β σ} {session : Session π (Diary β) (σ × List Memoir)}
  {id : InstanceId}

/-- An instance that acts keeps a diary that tells the truth, once it has heard the notice. -/
structure Attends (behaviour : Behaviour π β σ) (id : InstanceId) (tables : Tables π)
    (diary : Diary β) (notice : Notice) : Prop where
  acting : tables.Acting id
  kept : diary.Kept behaviour tables.load
  own : diary.invocation.id = id
  expects : diary.Expects notice
  vouched : (diary.hear notice).dialogue.Vouched tables.instances id

/-- Whoever is told the answer to what it asked for attends to it. -/
theorem Attends.replied {before after : Tables π} {diary : Diary β} {request : Request}
    {reply : Reply} (kept : diary.Kept behaviour before.load) (own : diary.invocation.id = id)
    (vouched : diary.dialogue.Vouched before.instances id) (asked : diary.asked = some request)
    (develops : before.Develops id after) (answered : request.Answered before.instances reply)
    (children : after.instances.childrenOf id = before.instances.childrenOf id ++
      (Tables.created? request (.finished reply)).toList) :
    Attends behaviour id after diary (.reply reply) := by
  refine ⟨develops.acting, ?_, own, ?_, ?_⟩
  · rw [develops.load]
    exact kept
  · simp [Diary.Expects, asked]
  · have told := vouched.told develops.spared.exitCode
      (answered.later develops.spared.exitCode) children
    simpa [Diary.hear, asked] using told

/-- How the actions of an instance leave its diary. -/
inductive Leaves (behaviour : Behaviour π β σ) (id : InstanceId)
    (session : Session π (Diary β) (σ × List Memoir)) :
    Turn (Diary β) × Session π (Diary β) (σ × List Memoir) → Prop where
  | rests {after : Session π (Diary β) (σ × List Memoir)} {diary : Diary β}
      {blocked : Option Blocked} (truthful : diary.Truthful behaviour after.tables blocked)
      (own : diary.invocation.id = id) (memoirs : after.shared.2 = session.shared.2) :
    Leaves behaviour id session (.suspended diary blocked, after)
  | ends {after : Session π (Diary β) (σ × List Memoir)} {memoir : Memoir}
      {result : Except String Int8} (truthful : memoir.Truthful behaviour after.tables)
      (own : memoir.invocation.id = id) (ended : memoir.result = result)
      (memoirs : after.shared.2 = session.shared.2 ++ [memoir]) :
    Leaves behaviour id session (.ended result, after)

namespace Attends

variable {diary next : Diary β} {notice : Notice} {action : Action} {later : σ × List Memoir}
  (attends : Attends behaviour id session.tables diary notice)
  (chosen : behaviour.recorded.next diary session.shared notice = (action, next, later))
include attends chosen

/-- An instance that ends leaves its diary. -/
theorem ends {result : Except String Int8} (final : action.result? = some result) :
    Leaves behaviour id session (.ended result, { session with shared := later }) := by
  have goes := Behaviour.recorded_goes chosen
  have memoir : (diary.hear notice).memoir? action =
      some ⟨diary.invocation, (diary.hear notice).dialogue, result⟩ := by
    simp [Diary.memoir?, final]
  have truthful : Memoir.Truthful behaviour session.tables
      ⟨diary.invocation, (diary.hear notice).dialogue, result⟩ := by
    refine ⟨⟨diary, notice, session.shared, attends.kept, attends.expects, ?_⟩, ?_⟩
    · rw [goes.chosen, memoir]
    · show Dialogue.Vouched _ diary.invocation.id _
      rw [attends.own]
      exact attends.vouched
  refine .ends truthful attends.own rfl ?_
  rw [goes.memoirs, memoir]
  rfl

/-- An instance that goes on keeps its diary. -/
theorem goesOn (ongoing : action.result? = none) :
    next.Kept behaviour session.tables.load ∧ next.invocation.id = id ∧
      next.dialogue.Vouched session.tables.instances id ∧ next.asked = action.request? ∧
      later.2 = session.shared.2 := by
  have goes := Behaviour.recorded_goes chosen
  have further := attends.kept.further attends.expects session.shared
  rw [chosen] at further
  refine ⟨further, (congrArg Invocation.id goes.invocation).trans attends.own, ?_, goes.asked, ?_⟩
  · rw [goes.dialogue]
    exact attends.vouched
  · rw [goes.memoirs, Diary.memoir?, ongoing]
    simp

/-- Whoever does nothing but go on is told nothing that was not asked for. -/
theorem idles {after : Tables π} (same : after = session.tables) (ongoing : action.result? = none)
    (silent : action.request? = none) (notice : Notice) (quiet : ∀ reply, notice ≠ .reply reply) :
    Attends behaviour id after next notice := by
  subst same
  obtain ⟨kept, own, vouched, asked, -⟩ := attends.goesOn chosen ongoing
  have idle : next.asked = none := asked.trans silent
  refine ⟨attends.acting, kept, own, ?_, ?_⟩
  · cases notice with
    | reply reply => exact absurd rfl (quiet reply)
    | go | view => exact idle
  · rw [Diary.hear_of_idle idle]
    exact vouched

end Attends

/-- What was left since some time is what was left since then, if nobody else has ended. -/
theorem Leaves.since {middle : Session π (Diary β) (σ × List Memoir)}
    {result : Turn (Diary β) × Session π (Diary β) (σ × List Memoir)}
    (leaves : Leaves behaviour id middle result) (same : middle.shared.2 = session.shared.2) :
    Leaves behaviour id session result := by
  cases leaves with
  | rests truthful own memoirs => exact .rests truthful own (memoirs.trans same)
  | ends truthful own ended memoirs => exact .ends truthful own ended (by rw [memoirs, same])

/-- An instance that acts writes down what happens. -/
theorem Acts.leaves {diary : Diary β} {notice : Notice}
    {result : Turn (Diary β) × Session π (Diary β) (σ × List Memoir)}
    (acts : Acts behaviour.recorded id diary notice session result)
    (attends : Attends behaviour id session.tables diary notice) :
    session.tables.Develops id result.2.tables ∧ Leaves behaviour id session result := by
  -- By induction on the actions: the answer to one call is heard before the next is chosen.
  induction acts with
  | exit chosen => exact ⟨attends.acting.refl, attends.ends chosen rfl⟩
  | fault chosen => exact ⟨attends.acting.refl, attends.ends chosen rfl⟩
  | park chosen =>
    obtain ⟨kept, own, vouched, asked, memoirs⟩ := attends.goesOn chosen rfl
    refine ⟨attends.acting.refl, .rests ⟨kept, ?_, fun _ => asked, ?_⟩ own memoirs⟩
    · rw [own]
      exact vouched
    intro waiting none
    simp at none
  | @block _ _ _ session _ request blocked tables chosen performed =>
    obtain ⟨kept, own, vouched, asked, memoirs⟩ := attends.goesOn chosen rfl
    obtain ⟨develops, children⟩ := attends.acting.perform performed
    have suits := session.tables.suits_perform id request
    rw [performed] at suits
    cases suits with
    | blocked serves =>
      -- Who has to wait has created nobody.
      have childless : Tables.created? request (.blocked blocked) = none := by
        cases request <;> rfl
      have waits := Diary.Truthful.waiting kept own vouched asked develops serves
        (by rw [children, childless]; simp)
      exact ⟨develops, .rests waits own memoirs⟩
  | @finish _ next _ session _ request reply tables _ chosen performed rest ih =>
    obtain ⟨kept, own, vouched, asked, memoirs⟩ := attends.goesOn chosen rfl
    obtain ⟨develops, children⟩ := attends.acting.perform performed
    have suits := session.tables.suits_perform id request
    rw [performed] at suits
    cases suits with
    | finished answered =>
      obtain ⟨further, leaves⟩ :=
        ih (Attends.replied kept own vouched asked develops answered children)
      exact ⟨develops.trans further, leaves.since memoirs⟩
  | inspect chosen rest ih =>
    obtain ⟨-, -, -, -, memoirs⟩ := attends.goesOn chosen rfl
    obtain ⟨develops, leaves⟩ := ih (attends.idles chosen rfl rfl rfl _ (by simp))
    exact ⟨develops, leaves.since memoirs⟩
  | step chosen rest ih =>
    obtain ⟨-, -, -, -, memoirs⟩ := attends.goesOn chosen rfl
    obtain ⟨develops, leaves⟩ := ih (attends.idles chosen rfl rfl rfl _ (by simp))
    exact ⟨develops, leaves.since memoirs⟩
  | @wake _ _ _ session shared target _ chosen rest ih =>
    obtain ⟨-, -, -, -, memoirs⟩ := attends.goesOn chosen rfl
    have same : (({ session with shared := shared } : Session π (Diary β) _).wake target).tables =
        session.tables := by
      unfold Session.wake
      split <;> rfl
    have alike : (({ session with shared := shared } : Session π (Diary β) _).wake target).shared =
        shared := by
      unfold Session.wake
      split <;> rfl
    obtain ⟨develops, leaves⟩ := ih (attends.idles chosen same rfl rfl _ (by simp))
    rw [same] at develops
    exact ⟨develops, leaves.since (by rw [alike]; exact memoirs)⟩

/-- An instance that goes on from where it waits writes down what happens. -/
theorem Proceeds.leaves {task : Task (Diary β)}
    {result : Turn (Diary β) × Session π (Diary β) (σ × List Memoir)}
    (goes : Proceeds behaviour.recorded task session result)
    (acting : session.tables.Acting task.id)
    (truthful : task.state.Truthful behaviour session.tables task.blocked)
    (own : task.state.invocation.id = task.id) :
    session.tables.Develops task.id result.2.tables ∧ Leaves behaviour task.id session result := by
  have vouched := truthful.vouched
  rw [own] at vouched
  -- A call that can wait creates nobody.
  have childless {call : Pending} {request : Request} (serves : call.Serves request)
      (progress : Progress) : Tables.created? request progress = none := by
    cases serves <;> rfl
  -- Either the instance asked for nothing, or its call is attempted once more.
  cases goes with
  | free idle acts =>
    have asked := truthful.idle idle
    refine acts.leaves ⟨acting, truthful.kept, own, asked, ?_⟩
    rw [Diary.hear_of_idle asked]
    exact vouched
  | @answered blocked reply tables _ waits retried acts =>
    obtain ⟨request, asked, serves⟩ := truthful.waits blocked waits
    obtain ⟨develops, instances⟩ := acting.retry retried
    have suits := session.tables.suits_retry task.id serves
    rw [retried] at suits
    cases suits with
    | finished answered =>
      obtain ⟨further, leaves⟩ :=
        acts.leaves (Attends.replied truthful.kept own vouched asked develops answered
          (by rw [childless serves, instances]; simp))
      exact ⟨develops.trans further, leaves.since rfl⟩
  | @stays blocked still tables waits retried =>
    obtain ⟨request, asked, serves⟩ := truthful.waits blocked waits
    obtain ⟨develops, instances⟩ := acting.retry retried
    have suits := session.tables.suits_retry task.id serves
    rw [retried] at suits
    cases suits with
    | blocked serves =>
      have waits := Diary.Truthful.waiting truthful.kept own vouched asked develops serves
        (by rw [instances])
      exact ⟨develops, .rests waits own rfl⟩

/-- All diaries and memoirs of a session tell the truth, and whoever has exited has left a
memoir. -/
structure Chronicled (behaviour : Behaviour π β σ) (load : Descriptor → Except CallError π)
    (session : Session π (Diary β) (σ × List Memoir)) : Prop where
  load : session.tables.load = load
  peopled : session.tables.Peopled
  diaries : ∀ task ∈ session.tasks, task.state.Truthful behaviour session.tables task.blocked ∧
    task.state.invocation.id = task.id
  memoirs : ∀ memoir ∈ session.shared.2, memoir.Truthful behaviour session.tables
  /-- The record tells the same end as the memoir. -/
  ends : ∀ memoir ∈ session.shared.2, ∃ record,
    session.tables.instances.find? memoir.invocation.id = some record ∧
      record.state = .exited (Tables.ending memoir.result).1 ∧
      record.fault = (Tables.ending memoir.result).2
  complete : ∀ {id : InstanceId} {code : Int8},
    session.tables.instances.exitCode id = some code →
      ∃ memoir ∈ session.shared.2, memoir.invocation.id = id

variable {load : Descriptor → Except CallError π}

/-- Who has left a memoir has exited. -/
theorem Chronicled.exited (chronicled : Chronicled behaviour load session) {memoir : Memoir}
    (there : memoir ∈ session.shared.2) :
    session.tables.instances.exitCode memoir.invocation.id =
      some (Tables.ending memoir.result).1 := by
  obtain ⟨record, found, state, -⟩ := chronicled.ends memoir there
  simp [InstanceTable.exitCode, found, state, Lifecycle.exitCode]

/-- What somebody does who runs leaves the diaries of the others true, and all memoirs. -/
theorem Chronicled.others (chronicled : Chronicled behaviour load session) {after : Tables π}
    (running : session.tables.instances.exitCode id = none)
    (spared : session.tables.instances.Spared id after.instances)
    (kept : after.load = session.tables.load) :
    (∀ task ∈ session.tasks, task.id ≠ id →
      task.state.Truthful behaviour after task.blocked ∧ task.state.invocation.id = task.id) ∧
    ∀ memoir ∈ session.shared.2, memoir.Truthful behaviour after ∧ ∃ record,
      after.instances.find? memoir.invocation.id = some record ∧
        record.state = .exited (Tables.ending memoir.result).1 ∧
        record.fault = (Tables.ending memoir.result).2 := by
  constructor
  · intro task there differ
    obtain ⟨truthful, own⟩ := chronicled.diaries task there
    exact ⟨truthful.later spared kept (by rw [own]; exact differ), own⟩
  · intro memoir there
    -- Who has left a memoir does not run any more.
    have differ : memoir.invocation.id ≠ id := by
      intro same
      have exited := chronicled.exited there
      rw [same, running] at exited
      simp at exited
    obtain ⟨record, found, told⟩ := chronicled.ends memoir there
    exact ⟨(chronicled.memoirs memoir there).later spared kept differ, record,
      spared.found differ found, told⟩

/-- An instance that rests has kept its diary, and nobody has ended. -/
theorem Chronicled.rests (chronicled : Chronicled behaviour load session)
    {middle : Session π (Diary β) (σ × List Memoir)}
    (running : session.tables.instances.exitCode id = none)
    (develops : session.tables.Develops id middle.tables) (tasks : middle.tasks = session.tasks)
    (memoirs : middle.shared.2 = session.shared.2) {diary : Diary β} {blocked : Option Blocked}
    (truthful : diary.Truthful behaviour middle.tables blocked) (own : diary.invocation.id = id) :
    Chronicled behaviour load (middle.settle id (.suspended diary blocked)) := by
  obtain ⟨diaries, older⟩ := chronicled.others running develops.spared develops.load
  refine ⟨develops.load.trans chronicled.load, develops.acting.peopled, fun other there => ?_,
    fun memoir there => ?_, fun memoir there => ?_, fun {other code} exited => ?_⟩
  · rcases mem_tasks_settle there with ⟨held, apart⟩ | ⟨state, waits, same, rfl⟩
    · exact diaries other (tasks ▸ held) apart
    · obtain ⟨rfl, rfl⟩ := Turn.suspended.inj same
      exact ⟨truthful, own⟩
  · exact (older memoir (memoirs ▸ there)).1
  · exact (older memoir (memoirs ▸ there)).2
  · -- The one that was polled has not exited, and the others had their codes before.
    replace exited : middle.tables.instances.exitCode other = some code := exited
    have apart : other ≠ id := by
      rintro rfl
      rw [develops.acting.exitCode] at exited
      simp at exited
    rw [develops.spared.others apart] at exited
    show ∃ memoir ∈ middle.shared.2, _
    rw [memoirs]
    exact chronicled.complete exited

/-- An instance that ends has left its memoir as the last one. -/
theorem Chronicled.leaves (chronicled : Chronicled behaviour load session)
    {middle : Session π (Diary β) (σ × List Memoir)}
    (running : session.tables.instances.exitCode id = none)
    (develops : session.tables.Develops id middle.tables) (tasks : middle.tasks = session.tasks)
    {last : Memoir} (memoirs : middle.shared.2 = session.shared.2 ++ [last])
    (truthful : last.Truthful behaviour middle.tables) (own : last.invocation.id = id) :
    Chronicled behaviour load (middle.settle id (.ended last.result)) := by
  obtain ⟨peopled, spared, kept, children⟩ := develops.acting.exit last.result
  obtain ⟨diaries, older⟩ := chronicled.others running (develops.spared.trans spared)
    (kept.trans develops.load)
  -- Nothing but the last memoir is new.
  have each (memoir : Memoir) (there : memoir ∈ middle.shared.2) :
      memoir ∈ session.shared.2 ∨ memoir = last := by
    rw [memoirs, List.mem_append, List.mem_singleton] at there
    exact there
  refine ⟨kept.trans (develops.load.trans chronicled.load), peopled, fun other there => ?_,
    fun memoir there => ?_, fun memoir there => ?_, fun {other code} exited => ?_⟩
  · rcases mem_tasks_settle there with ⟨held, apart⟩ | ⟨state, waits, same, rfl⟩
    · exact diaries other (tasks ▸ held) apart
    · simp at same
  · rcases each memoir there with before | rfl
    · exact (older memoir before).1
    · refine ⟨?_, fun exchange listed => ?_, ?_⟩
      · show Memoir.Kept behaviour (middle.tables.exit id memoir.result).load memoir
        rw [kept]
        exact truthful.kept
      · exact (truthful.vouched.answered exchange listed).later spared.exitCode
      · exact truthful.vouched.spawned.trans (children _).symm
  · rcases each memoir there with before | rfl
    · exact (older memoir before).2
    · rw [own]
      exact develops.acting.exited memoir.result
  · show ∃ memoir ∈ middle.shared.2, _
    rw [memoirs]
    by_cases same : other = id
    · exact ⟨last, by simp, own.trans same.symm⟩
    · replace exited :
          (middle.tables.exit id last.result).instances.exitCode other = some code := exited
      rw [(develops.spared.trans spared).others same] at exited
      obtain ⟨memoir, there, named⟩ := chronicled.complete exited
      exact ⟨memoir, List.mem_append_left _ there, named⟩

/-- A poll of an instance that keeps a diary leaves all diaries true. -/
theorem Chronicled.polls (chronicled : Chronicled behaviour load session)
    (orderly : session.Orderly) (ongoing : session.finished = none) {task : Task (Diary β)}
    (started : task ∈ session.tasks) {after : Session π (Diary β) (σ × List Memoir)}
    (polled : Polls behaviour.recorded task session after) : Chronicled behaviour load after := by
  obtain ⟨turn, middle, goes, rfl⟩ := polled.proceeds
  -- Whoever is started is not among those who are yet to be started.
  have acting : session.tables.Acting task.id := by
    refine ⟨orderly.sound, orderly.running_of_task ongoing started, chronicled.peopled, ?_⟩
    intro launch there same
    have apart := (List.nodup_append.mp (orderly.nodup ongoing)).2.2 task.id
      (List.mem_map_of_mem started) launch.id (List.mem_map_of_mem there)
    exact apart same.symm
  obtain ⟨truthful, own⟩ := chronicled.diaries task started
  obtain ⟨develops, leaves⟩ := goes.leaves acting truthful own
  have frame := goes.frame
  dsimp only at develops frame
  have tasks : middle.tasks = session.tasks := by
    rw [frame]
    rfl
  cases leaves with
  | rests truthful own memoirs =>
    exact chronicled.rests acting.exitCode develops tasks memoirs truthful own
  | ends truthful own ended memoirs =>
    subst ended
    exact chronicled.leaves acting.exitCode develops tasks memoirs truthful own

/-- The diaries of new instances are empty, and so they are true. -/
theorem Chronicled.launch (chronicled : Chronicled behaviour load session) :
    Chronicled behaviour load (session.launch behaviour.recorded) := by
  obtain ⟨woken, same, -⟩ := launch_eq behaviour.recorded session
  rw [same]
  -- What is begun has heard nothing, which is what its record says as long as it has no children.
  refine ⟨chronicled.load, ⟨chronicled.peopled.lineage, by simp, by simp⟩, fun task there => ?_,
    fun memoir there => ?_, chronicled.ends, chronicled.complete⟩
  · rcases List.mem_append.mp there with older | new
    · obtain ⟨truthful, own⟩ := chronicled.diaries task older
      exact ⟨⟨truthful.kept, truthful.vouched, truthful.idle, truthful.waits⟩, own⟩
    · obtain ⟨launch, waiting, rfl⟩ := List.mem_map.mp new
      obtain ⟨descriptor, loaded⟩ := chronicled.peopled.loaded launch waiting
      have childless := chronicled.peopled.childless launch waiting
      refine ⟨⟨.begins loaded _, ⟨by simp [begun, Behaviour.recorded], ?_⟩, fun _ => rfl, ?_⟩, rfl⟩
      · exact childless.symm
      · simp [begun]
  · have truthful := chronicled.memoirs memoir there
    exact ⟨truthful.kept, truthful.vouched⟩

/-- A session is opened without anything to tell. -/
theorem chronicled_boot {config : Config} {load : Descriptor → Except CallError π}
    {keepsEvents : Bool} {tables : Tables π}
    (valid : Tables.new config load keepsEvents = .ok tables) (behaviour : Behaviour π β σ)
    (shared : σ) (descriptor : Descriptor) (argv : List Bytes) :
    Chronicled behaviour load
      ((ofTables tables (shared, []) : Session π (Diary β) _).boot descriptor argv).2 := by
  have sound := (orderly_ofTables valid (shared, ([] : List Memoir)) : Orderly
    (ofTables tables (shared, []) : Session π (Diary β) _)).sound
  unfold Session.boot
  rcases Tables.boot_case sound descriptor argv with
    ⟨error, same⟩ | ⟨program, loaded, empty, next, same⟩
  · rw [same]
    obtain rfl := new_eq valid
    exact ⟨rfl, ⟨by simp [ofTables, InstanceTable.Lineage], by simp [ofTables], by simp [ofTables]⟩,
      by simp [ofTables], by simp [ofTables], by simp [ofTables],
      fun exited => by simp [ofTables, InstanceTable.exitCode, InstanceTable.find?] at exited⟩
  · rw [same]
    obtain rfl := new_eq valid
    refine ⟨rfl, ⟨.founds empty next 0, fun launch there => ?_, fun launch there => ?_⟩,
      by simp [ofTables], by simp [ofTables], by simp [ofTables], fun {id code} exited => ?_⟩
    · obtain rfl := List.mem_singleton.mp there
      exact ⟨descriptor, loaded⟩
    · show ((ofTables _ _ : Session π (Diary β) _).tables.instances.enlist none 0).childrenOf _ = []
      rw [InstanceTable.childrenOf_enlist]
      rfl
    · -- The first instance has not exited.
      replace exited : (InstanceTable.enlist _ none 0).exitCode id = some code := exited
      rw [InstanceTable.exitCode, sound.indexed.find?_enlist (by rw [next]; decide)] at exited
      split at exited
      · simp [Lifecycle.exitCode] at exited
      · simp [ofTables, InstanceTable.find?] at exited

/-- A run leaves all diaries true. -/
theorem Runs.chronicled {root : InstanceId} {left : Option Nat}
    {run : Run π (Diary β) (σ × List Memoir)}
    (runs : Runs behaviour.recorded root left session run)
    (reached : Reached behaviour.recorded session) (ongoing : session.finished = none)
    (booted : session.root = some root) (chronicled : Chronicled behaviour load session) :
    Chronicled behaviour load run.2 := by
  -- Round by round, whoever is polled writes down what happens.
  induction runs with
  | @ends _ session _ last =>
    cases last with
    | inconsistent => exact chronicled
    | pauses | stalls => exact chronicled.launch
    | @exits code =>
      obtain ⟨pipes, signals, journal, torn⟩ := Tables.foldl_teardown_eq
        (session.liveInstances ++ session.tables.launches.map Launch.id) session.tables
      have finished : (session.finish code).2 = { session with
          tables := { session.tables with
            pipes := pipes, signals := signals, journal := journal, launches := [] }
          tasks := [], woken := [], finished := some (.exited code session.consumedSteps) } := by
        simp only [finish, torn]
      rw [finished]
      exact ⟨chronicled.load, ⟨chronicled.peopled.lineage, by simp, by simp⟩, by simp,
        fun memoir there => ⟨(chronicled.memoirs memoir there).kept,
          (chronicled.memoirs memoir there).vouched⟩, chronicled.ends, chronicled.complete⟩
  | @further _ _ session _ _ next goes ih =>
    have frame := next.frame
    refine ih (.further reached ongoing booted next) (frame.1.trans ongoing)
      (frame.2.trans booted) ?_
    have launched : (session.launch behaviour.recorded).Orderly := reached.orderly.launch ongoing
    cases next with
    | passes =>
      have told := chronicled.launch
      exact ⟨told.load, told.peopled, told.diaries, told.memoirs, told.ends, told.complete⟩
    | polls _ _ _ found polled =>
      exact chronicled.launch.polls launched (launch_finished.trans ongoing)
        (task?_eq_some found).1 polled

end Session

end Progeny
