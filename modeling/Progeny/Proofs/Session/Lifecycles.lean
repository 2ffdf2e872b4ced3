import Mathlib.Data.List.Forall2
import Progeny.Proofs.Session.Conduct
import Progeny.Proofs.Session.Replies

/-! Every instance lives once: it is created once, started at most once with exactly what was asked
for, and recorded as exited exactly when it ends, with its code and its fault. -/

namespace Progeny

/-- What was asked for when an instance was created. -/
structure Commission where
  id : InstanceId
  descriptor : Descriptor
  argv : List Bytes
  endpoints : List Endpoint

/-- A launch is what was asked for, with the program of its descriptor. -/
structure Launch.Fulfils {π : Type} (load : Descriptor → Except CallError π) (launch : Launch π)
    (commission : Commission) : Prop where
  id : launch.id = commission.id
  program : load commission.descriptor = .ok launch.program
  argv : launch.argv = commission.argv
  endpoints : launch.endpoints = commission.endpoints

/-- A record says how its instance ended, and that it runs if it did not. -/
inductive InstanceRecord.Tells (endings : List (InstanceId × Except String Int8))
    (record : InstanceRecord) : Prop where
  | runs (state : record.state = .running) (fault : record.fault = none)
      (unended : record.id ∉ endings.map Prod.fst)
  | exited {result : Except String Int8} (ended : (record.id, result) ∈ endings)
      (state : record.state = .exited (Tables.ending result).1)
      (fault : record.fault = (Tables.ending result).2)

namespace Session

variable {π β σ : Type}

namespace Deed

/-- What a deed asked for, if it created an instance. -/
def commission? : Deed π → Option Commission
  | .boots descriptor argv (.ok id) => some ⟨id, descriptor, argv, []⟩
  | .calls _ (.spawn descriptor argv endpoints) (.finished (.ok (.instance id))) =>
    some ⟨id, descriptor, argv, endpoints⟩
  | _ => none

/-- The launch that a deed started. -/
def launch? : Deed π → Option (Launch π)
  | .starts launch => some launch
  | _ => none

/-- The instance that ended by a deed, with its result. -/
def ending? : Deed π → Option (InstanceId × Except String Int8)
  | .ends id result => some (id, result)
  | _ => none

end Deed

/-- All that was asked for, in the order in which instances were created. -/
def commissions (deeds : List (Deed π)) : List Commission :=
  deeds.filterMap Deed.commission?

/-- All launches that were started. -/
def starts (deeds : List (Deed π)) : List (Launch π) :=
  deeds.filterMap Deed.launch?

/-- All results of programs. -/
def endings (deeds : List (Deed π)) : List (InstanceId × Except String Int8) :=
  deeds.filterMap Deed.ending?

@[simp] theorem commissions_concat (deeds : List (Deed π)) (deed : Deed π) :
    commissions (deeds ++ [deed]) = commissions deeds ++ deed.commission?.toList := by
  cases asked : deed.commission? <;> simp [commissions, asked]

@[simp] theorem starts_concat (deeds : List (Deed π)) (deed : Deed π) :
    starts (deeds ++ [deed]) = starts deeds ++ deed.launch?.toList := by
  cases started : deed.launch? <;> simp [starts, started]

@[simp] theorem endings_concat (deeds : List (Deed π)) (deed : Deed π) :
    endings (deeds ++ [deed]) = endings deeds ++ deed.ending?.toList := by
  cases ended : deed.ending? <;> simp [endings, ended]

/-- The records, and what is still to be started, agree with what was asked for, what was begun, and
what is over. -/
structure Accounted (asked : List Commission) (begun : List (Launch π))
    (gone : List (InstanceId × Except String Int8)) (session : Session π β σ) : Prop where
  created : asked.map Commission.id = session.tables.instances.records.map InstanceRecord.id
  fulfilled : ∃ waiting,
    List.Forall₂ (Launch.Fulfils session.tables.load) (begun ++ waiting) asked ∧
      (session.finished = none → waiting = session.tables.launches)
  live : ∀ task ∈ session.tasks, task.id ∈ begun.map Launch.id
  endedOnce : (gone.map Prod.fst).Nodup
  ended : ∀ id ∈ gone.map Prod.fst, id ∈ begun.map Launch.id
  told : ∀ record ∈ session.tables.instances.records, record.Tells gone

variable {behaviour : Behaviour π β σ} {discipline : Discipline} {deeds : List (Deed π)}
  {deed : Deed π} {session after : Session π β σ} {asked : List Commission}
  {begun : List (Launch π)} {gone : List (InstanceId × Except String Int8)}

namespace Accounted

variable (accounted : Accounted asked begun gone session)
include accounted

/-- What was begun and what waits is what the records are of. -/
theorem identities : ∃ waiting : List (Launch π),
    (begun ++ waiting).map Launch.id =
      session.tables.instances.records.map InstanceRecord.id ∧
    (session.finished = none → waiting = session.tables.launches) := by
  obtain ⟨waiting, fulfilled, same⟩ := accounted.fulfilled
  refine ⟨waiting, ?_, same⟩
  rw [← accounted.created]
  clear same accounted
  generalize begun ++ waiting = launches at fulfilled
  induction fulfilled with
  | nil => rfl
  | cons first _ ih => simp [first.id, ih]

/-- Nobody is started twice. -/
theorem startedOnce (sound : session.tables.Sound) : (begun.map Launch.id).Nodup := by
  obtain ⟨waiting, same, -⟩ := accounted.identities
  have apart := sound.indexed.nodup_ids
  rw [← same, List.map_append] at apart
  exact (List.nodup_append.mp apart).1

/-- Whoever has ended has a record. -/
theorem recorded {id : InstanceId} (ended : id ∈ gone.map Prod.fst) :
    id ∈ session.tables.instances.records.map InstanceRecord.id := by
  obtain ⟨waiting, same, -⟩ := accounted.identities
  rw [← same, List.map_append]
  exact List.mem_append_left _ (accounted.ended id ended)

/-- The accounts stay right where no record changes, no launch is added or taken away as long as the
session goes on, and every task is an older one. -/
theorem kept (instances : after.tables.instances = session.tables.instances)
    (load : after.tables.load = session.tables.load)
    (launches : after.finished = none →
      session.finished = none ∧ after.tables.launches = session.tables.launches)
    (tasks : ∀ task ∈ after.tasks, ∃ held ∈ session.tasks, held.id = task.id) :
    Accounted asked begun gone after := by
  obtain ⟨waiting, fulfilled, same⟩ := accounted.fulfilled
  refine ⟨?_, ⟨waiting, ?_, fun ongoing => ?_⟩, fun task member => ?_, accounted.endedOnce,
    accounted.ended, ?_⟩
  · rw [instances]
    exact accounted.created
  · rw [load]
    exact fulfilled
  · rw [(launches ongoing).2]
    exact same (launches ongoing).1
  · obtain ⟨held, there, alike⟩ := tasks task member
    rw [← alike]
    exact accounted.live held there
  · rw [instances]
    exact accounted.told

/-- A new instance has a record that runs and a launch that is what was asked for. -/
theorem creates (sound : session.tables.Sound) {commission : Commission} {launch : Launch π}
    {parent : Option InstanceId} {depth : UInt32}
    (id : commission.id = ⟨session.tables.instances.nextId⟩)
    (fulfils : launch.Fulfils session.tables.load commission)
    (instances : after.tables.instances = session.tables.instances.enlist parent depth)
    (load : after.tables.load = session.tables.load)
    (launches : after.tables.launches = session.tables.launches ++ [launch])
    (finished : after.finished = session.finished) (tasks : after.tasks = session.tasks) :
    Accounted (asked ++ [commission]) begun gone after := by
  obtain ⟨waiting, fulfilled, same⟩ := accounted.fulfilled
  refine ⟨?_, ⟨waiting ++ [launch], ?_, fun ongoing => ?_⟩, ?_, accounted.endedOnce,
    accounted.ended, fun record member => ?_⟩
  · rw [instances, List.map_append, accounted.created]
    simp [InstanceTable.enlist, id]
  · rw [load, ← List.append_assoc]
    exact List.rel_append fulfilled (.cons fulfils .nil)
  · rw [launches, same (finished ▸ ongoing)]
  · rw [tasks]
    exact accounted.live
  · simp only [instances, InstanceTable.enlist, List.mem_append, List.mem_singleton] at member
    rcases member with older | rfl
    · exact accounted.told record older
    · exact .runs rfl rfl fun ended =>
        absurd (accounted.recorded ended) sound.indexed.next_notMem

/-- The oldest launch becomes a task. -/
theorem starts {launch : Launch π} {rest : List (Launch π)} {task : Task β}
    (ongoing : session.finished = none)
    (oldest : session.tables.launches = launch :: rest)
    (instances : after.tables.instances = session.tables.instances)
    (load : after.tables.load = session.tables.load) (launches : after.tables.launches = rest)
    (tasks : after.tasks = session.tasks ++ [task]) (own : task.id = launch.id) :
    Accounted asked (begun ++ [launch]) gone after := by
  obtain ⟨waiting, fulfilled, same⟩ := accounted.fulfilled
  obtain rfl := same ongoing
  refine ⟨?_, ⟨rest, ?_, fun _ => launches.symm⟩, fun held member => ?_, accounted.endedOnce,
    fun id ended => ?_, ?_⟩
  · rw [instances]
    exact accounted.created
  · rw [oldest] at fulfilled
    rw [load]
    simpa using fulfilled
  · rw [tasks, List.mem_append, List.mem_singleton] at member
    rw [List.map_append]
    rcases member with older | rfl
    · exact List.mem_append_left _ (accounted.live held older)
    · simp [own]
  · rw [List.map_append]
    exact List.mem_append_left _ (accounted.ended id ended)
  · rw [instances]
    exact accounted.told

/-- An instance that ends is recorded as exited. -/
theorem ends (sound : session.tables.Sound) {id : InstanceId} {result : Except String Int8}
    (running : id ∈ session.tables.instances.running) (live : id ∈ session.liveInstances)
    (instances : after.tables.instances =
      session.tables.instances.retire id (Tables.ending result).1 (Tables.ending result).2)
    (load : after.tables.load = session.tables.load)
    (launches : after.tables.launches = session.tables.launches)
    (finished : after.finished = session.finished)
    (tasks : ∀ task ∈ after.tasks, task ∈ session.tasks) :
    Accounted asked begun (gone ++ [(id, result)]) after := by
  obtain ⟨waiting, fulfilled, same⟩ := accounted.fulfilled
  have started : id ∈ begun.map Launch.id := by
    obtain ⟨task, there, rfl⟩ := List.mem_map.mp live
    exact accounted.live task there
  -- Whoever runs has not ended before.
  have unended : id ∉ gone.map Prod.fst := by
    obtain ⟨record, found, state⟩ := sound.indexed.mem_running.mp running
    have own := sound.indexed.id_of_find? found
    cases accounted.told record (List.mem_of_find?_eq_some found) with
    | runs _ _ unended => exact own ▸ unended
    | exited _ exited => simp [exited] at state
  refine ⟨?_, ⟨waiting, ?_, fun ongoing => ?_⟩, fun task member => ?_, ?_, fun other ended => ?_,
    fun record member => ?_⟩
  · rw [instances, accounted.created]
    simp only [InstanceTable.retire, List.map_map]
    refine List.map_congr_left fun record _ => ?_
    simp only [Function.comp_apply]
    split <;> rfl
  · rw [load]
    exact fulfilled
  · rw [launches]
    exact same (finished ▸ ongoing)
  · exact accounted.live task (tasks task member)
  · rw [List.map_append, List.nodup_append]
    refine ⟨accounted.endedOnce, by simp, fun earlier member last same => ?_⟩
    simp only [List.map_cons, List.map_nil, List.mem_singleton] at same
    subst same
    exact fun again => unended (again ▸ member)
  · rw [List.map_append, List.mem_append] at ended
    rcases ended with earlier | now
    · exact accounted.ended other earlier
    · simp only [List.map_cons, List.map_nil, List.mem_singleton] at now
      exact now ▸ started
  · simp only [instances, InstanceTable.retire, List.mem_map] at member
    obtain ⟨held, there, rfl⟩ := member
    split
    · rename_i own
      exact .exited (by simp [own]) rfl rfl
    · rename_i other
      cases accounted.told held there with
      | runs state fault still =>
        refine .runs state fault ?_
        simp only [List.map_append, List.map_cons, List.map_nil, List.mem_append,
          List.mem_singleton, not_or]
        exact ⟨still, other⟩
      | exited ended state fault => exact .exited (List.mem_append_left _ ended) state fault

end Accounted

/-- Every deed keeps the accounts right. -/
theorem Step.accounted {polled : Option InstanceId} (steady : Steady polled session)
    (accounted : Accounted asked begun gone session)
    (step : Step behaviour discipline polled session deed after) :
    Accounted (asked ++ deed.commission?.toList) (begun ++ deed.launch?.toList)
      (gone ++ deed.ending?.toList) after := by
  have sound := steady.orderly.sound
  cases step with
  | boots idle descriptor argv =>
    rcases Tables.boot_case sound descriptor argv with
      ⟨error, same⟩ | ⟨program, loaded, empty, next, same⟩
    · simp only [boot, same, Deed.commission?, Deed.launch?, Deed.ending?, Option.toList_none,
        List.append_nil]
      exact accounted
    · simp only [boot, same, Deed.commission?, Deed.launch?, Deed.ending?, Option.toList_none,
        Option.toList_some, List.append_nil]
      refine accounted.creates sound ?_ ⟨rfl, loaded, rfl, rfl⟩ rfl rfl rfl rfl rfl
      simp [next, InstanceId.root]
  | starts idle ongoing oldest =>
    simp only [Deed.commission?, Deed.launch?, Deed.ending?, Option.toList_none,
      Option.toList_some, List.append_nil]
    rw [start_eq]
    exact accounted.starts ongoing oldest rfl rfl rfl rfl rfl
  | polls idle ongoing started =>
    simp only [Deed.commission?, Deed.launch?, Deed.ending?, Option.toList_none, List.append_nil]
    exact accounted.kept rfl rfl (fun ongoing => ⟨ongoing, rfl⟩)
      fun task there => ⟨task, there, rfl⟩
  | @calls caller request progress tables _ performed =>
    have outcome := Tables.CallCase.of_perform sound performed
    cases outcome with
    | spawns loaded held found named =>
      simp only [Deed.commission?, Deed.launch?, Deed.ending?, Option.toList_none,
        Option.toList_some, List.append_nil]
      exact accounted.creates sound rfl ⟨rfl, loaded, rfl, rfl⟩ rfl rfl rfl rfl rfl
    | connects | closes | repeats =>
      simp only [Deed.commission?, Deed.launch?, Deed.ending?, Option.toList_none, List.append_nil]
      exact accounted.kept rfl rfl (fun ongoing => ⟨ongoing, rfl⟩)
        fun task there => ⟨task, there, rfl⟩
    | refused immediate =>
      simp only [Deed.commission?, Deed.launch?, Deed.ending?, Option.toList_none, List.append_nil]
      exact accounted
    | exchanges begins exchanges =>
      obtain ⟨-, instances, -, launches, load, -⟩ := exchanges.keeps sound
      -- A request that can wait is none for a child.
      have uncommissioned : (Deed.calls caller request progress : Deed π).commission? = none := by
        cases request <;> simp [Request.pending?] at begins <;> rfl
      simp only [uncommissioned, Deed.launch?, Deed.ending?, Option.toList_none, List.append_nil]
      exact accounted.kept instances load (fun ongoing => ⟨ongoing, launches⟩)
        fun task there => ⟨task, there, rfl⟩
  | @resumes caller pending progress tables _ resumed =>
    have exchanges := Tables.Exchanges.of_resume resumed
    obtain ⟨-, instances, -, launches, load, -⟩ := exchanges.keeps sound
    simp only [Deed.commission?, Deed.launch?, Deed.ending?, Option.toList_none, List.append_nil]
    exact accounted.kept instances load (fun ongoing => ⟨ongoing, launches⟩)
      fun task there => ⟨task, there, rfl⟩
  | stirs shared woken =>
    simp only [Deed.commission?, Deed.launch?, Deed.ending?, Option.toList_none, List.append_nil]
    exact accounted.kept rfl rfl (fun ongoing => ⟨ongoing, rfl⟩)
      fun task there => ⟨task, there, rfl⟩
  | @rests id acting state blocked =>
    simp only [Deed.commission?, Deed.launch?, Deed.ending?, Option.toList_none, List.append_nil]
    refine accounted.kept rfl rfl (fun ongoing => ⟨ongoing, rfl⟩) fun task there => ?_
    simp only [Session.settle, List.mem_map] at there
    obtain ⟨held, member, rfl⟩ := there
    refine ⟨held, member, ?_⟩
    split
    · rename_i same
      exact same
    · rfl
  | @ends id acting result =>
    have running := steady.running acting
    have exited := Tables.exit_eq sound running result
    simp only [Deed.commission?, Deed.launch?, Deed.ending?, Option.toList_none,
      Option.toList_some, List.append_nil]
    refine accounted.ends sound running (steady.acting id acting).2 ?_ ?_ ?_ rfl fun task there =>
      (List.mem_filter.mp there).1
    all_goals
      simp only [Session.settle, exited]
  | finishes idle ongoing booted exited =>
    simp only [Deed.commission?, Deed.launch?, Deed.ending?, Option.toList_none, List.append_nil]
    obtain ⟨pipes, signals, journal, torn⟩ := Tables.foldl_teardown_eq
      (session.liveInstances ++ session.tables.launches.map Launch.id) session.tables
    refine accounted.kept ?_ ?_ (fun ongoing => by simp [Session.finish] at ongoing)
      (fun task there => by simp [Session.finish] at there)
    all_goals
      simp only [Session.finish, torn]

/-- The accounts of a history are right. -/
theorem History.accounted (history : History behaviour discipline deeds session) :
    Accounted (commissions deeds) (starts deeds) (endings deeds) session := by
  -- At the beginning there is nothing to account for.
  refine history.induction (fun deeds session =>
    Accounted (commissions deeds) (starts deeds) (endings deeds) session) ?_ ?_
  · intro config load keepsEvents tables shared valid
    obtain rfl := new_eq valid
    exact ⟨rfl, ⟨[], .nil, fun _ => rfl⟩, fun task there => by simp [ofTables] at there,
      List.nodup_nil, fun id ended => by simp [endings] at ended,
      fun record there => by simp [ofTables] at there⟩
  · intro earlier before next deed steady accounted step
    rw [commissions_concat, starts_concat, endings_concat]
    exact step.accounted steady accounted

/-- A launch is started outside polls, and after its instance was created. -/
theorem History.starts_late {earlier later : List (Deed π)} {launch : Launch π}
    (history : History behaviour discipline (earlier ++ .starts launch :: later) session) :
    polling earlier = none ∧ launch.id ∈ (commissions earlier).map Commission.id := by
  obtain ⟨before, next, first, step⟩ := history.split
  cases step with
  | starts idle ongoing oldest =>
    refine ⟨idle, ?_⟩
    -- Just before it was started it was waiting, and so it has a record.
    obtain ⟨waiting, same, queued⟩ := first.accounted.identities
    rw [first.accounted.created, ← same, queued ongoing, oldest]
    simp

/-- What a session that was booted returns with, whatever was done with it before: its first
instance exited, a limit was reached, or nothing is left to run. -/
theorem History.returns {mode : RunMode} {result : Except SessionError RunOutcome}
    (history : History behaviour discipline deeds session) (idle : polling deeds = none)
    (booted : session.root ≠ none) (returned : Returns behaviour mode session (result, after)) :
    (∃ code steps, result = .ok (.exited code steps)) ∨ (∃ steps, result = .ok (.paused steps)) ∨
      ∃ blocked, result = .error (.deadlock blocked) := by
  cases return_case returned with
  | @again outcome ended =>
    obtain ⟨code, steps, rfl⟩ := history.steady.outcome outcome ended
    exact .inl ⟨code, steps, rfl⟩
  | unbooted _ none => exact absurd none booted
  | runs ongoing booted runs =>
    obtain ⟨more, last, rest, -, -, orderly, -, -, round⟩ :=
      runs.course idle history.steady.orderly ongoing booted
    cases round with
    | inconsistent found => simp [orderly.sound.consistent] at found
    | exits => exact .inl ⟨_, _, rfl⟩
    | pauses => exact .inr (.inl ⟨_, rfl⟩)
    | stalls => exact .inr (.inr ⟨_, rfl⟩)

/-- Every instance lives once. -/
structure LivesOnce (behaviour : Behaviour π β σ) (deeds : List (Deed π))
    (session : Session π β σ) : Prop where
  /-- As long as the session goes on, the running instances are those that were started and have not
  ended, and those that wait to be started. Nobody is listed twice, and all others have exited. -/
  population : session.finished = none →
    session.liveInstances ++ session.tables.launches.map Launch.id =
        session.tables.instances.running ∧
      (session.liveInstances ++ session.tables.launches.map Launch.id).Nodup ∧
      ∀ record ∈ session.tables.instances.records,
        record.id ∉ session.liveInstances ++ session.tables.launches.map Launch.id →
        ∃ code, record.state = .exited code
  /-- Every record was asked for once. -/
  created : (commissions deeds).map Commission.id =
      session.tables.instances.records.map InstanceRecord.id ∧
    ((commissions deeds).map Commission.id).Nodup
  /-- What was started is what was asked for, in the same order, and what was not started waits as
  long as the session goes on. -/
  started : ∃ waiting,
    List.Forall₂ (Launch.Fulfils session.tables.load) (starts deeds ++ waiting)
      (commissions deeds) ∧ (session.finished = none → waiting = session.tables.launches)
  startedOnce : ((starts deeds).map Launch.id).Nodup
  /-- Nobody is started during a poll, so not in the one in which it was created either. -/
  startedLate : ∀ earlier launch later, deeds = earlier ++ .starts launch :: later →
    polling earlier = none ∧ launch.id ∈ (commissions earlier).map Commission.id
  /-- Whoever ends was started and ends once. -/
  ended : ((endings deeds).map Prod.fst).Nodup ∧
    ∀ id ∈ (endings deeds).map Prod.fst, id ∈ (starts deeds).map Launch.id
  /-- A record says how its instance ended, and that it runs if it did not. -/
  recorded : ∀ record ∈ session.tables.instances.records, record.Tells (endings deeds)
  /-- Whoever is polled can be recorded as exited. -/
  markable : ∀ id, polling deeds = some id → ∀ code fault,
    ∃ instances, session.tables.instances.markExited id code fault = .ok instances
  consistent : session.tables.violation = none
  /-- A run of a session that was booted ends in one of three ways. -/
  returns : polling deeds = none → session.root ≠ none → ∀ mode result after,
    Returns behaviour mode session (result, after) →
    (∃ code steps, result = .ok (.exited code steps)) ∨ (∃ steps, result = .ok (.paused steps)) ∨
      ∃ blocked, result = .error (.deadlock blocked)

/-- Whatever programs do in a session, every instance of it lives once. -/
theorem lives_once (history : History behaviour .free deeds session) :
    LivesOnce behaviour deeds session where
  population ongoing := by
    have orderly := history.steady.orderly
    refine ⟨orderly.population ongoing, orderly.nodup ongoing, fun record there absent => ?_⟩
    rw [orderly.population ongoing] at absent
    cases state : record.state with
    | exited code => exact ⟨code, rfl⟩
    | running =>
      refine absurd (List.mem_map_of_mem (List.mem_filter.mpr ⟨there, ?_⟩)) absent
      simp [state, Lifecycle.isExited]
  created := by
    refine ⟨history.accounted.created, ?_⟩
    rw [history.accounted.created]
    exact history.steady.orderly.sound.indexed.nodup_ids
  started := history.accounted.fulfilled
  startedOnce := history.accounted.startedOnce history.steady.orderly.sound
  startedLate earlier launch later same := (same ▸ history).starts_late
  ended := ⟨history.accounted.endedOnce, history.accounted.ended⟩
  recorded := history.accounted.told
  markable id acting code fault := by
    -- Whoever is polled runs.
    obtain ⟨record, found, state⟩ :=
      history.steady.orderly.sound.indexed.mem_running.mp (history.steady.running acting)
    exact ⟨_, InstanceTable.markExited_of_running found state code fault⟩
  consistent := history.steady.orderly.sound.consistent
  returns idle booted mode result after returned := history.returns idle booted returned

/-- A first instance is started, it spawns a child, and the child faults in its first poll. -/
def family : List (Deed Unit) :=
  [.boots { index := 0, source := 0 } [] (.ok .root), .starts ⟨.root, (), [], []⟩, .polls .root,
    .calls .root (.spawn { index := 0, source := 0 } [] []) (.finished (.ok (.instance ⟨1⟩))),
    .rests .root, .starts ⟨⟨1⟩, (), [], []⟩, .polls ⟨1⟩, .ends ⟨1⟩ (.error "lost")]

/-- The lives of that family. -/
theorem lives_once_of_family :
    ∃ session, History quiet .free family session ∧ LivesOnce quiet family session := by
  have started := (history_solo quiet .free).step (.starts rfl rfl rfl)
  have polled := started.step (.polls rfl rfl (.head _))
  have spawned := polled.step (.calls trivial
    (rfl : Tables.perform _ .root (.spawn { index := 0, source := 0 } [] []) = _))
  have rested := spawned.step (.rests rfl () none)
  have followed := rested.step (.starts rfl rfl rfl)
  have again := followed.step (.polls rfl rfl (.tail _ (.head _)))
  have history : History quiet .free family _ := again.step (.ends rfl (.error "lost"))
  exact ⟨_, history, lives_once history⟩

end Session

end Progeny
