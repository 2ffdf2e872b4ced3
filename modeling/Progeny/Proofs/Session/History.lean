import Progeny.Proofs.Session.Orderly

/-! Everything that can happen to a session, one call at a time. The programs are left open here:
an instance may do anything in its polls, with several calls under way at once, and calls may even
be made on behalf of others. What sessions do with programs of some behaviour is among it. -/

namespace Progeny.Session

variable {π β σ : Type}

/-- Something that happens to a session. -/
inductive Deed (π : Type) where
  /-- The holder of the session asks for its first instance. -/
  | boots (descriptor : Descriptor) (argv : List Bytes) (result : Except SessionError InstanceId)
  /-- The oldest of the created instances is started. -/
  | starts (launch : Launch π)
  /-- A poll of a started instance begins. -/
  | polls (id : InstanceId)
  /-- A call is made on behalf of an instance. -/
  | calls (caller : InstanceId) (request : Request) (progress : Progress)
  /-- A call that waits is tried again. -/
  | resumes (caller : InstanceId) (pending : Pending) (progress : Progress)
  /-- Programs change what they share, or instances are made ready or passed over. -/
  | stirs
  /-- A poll ends, and its instance goes on later. -/
  | rests (id : InstanceId)
  /-- A poll ends with its instance. -/
  | ends (id : InstanceId) (result : Except String Int8)
  /-- The first instance has exited, and whatever is left is torn down. -/
  | finishes (code : Int8)

/-- The instance whose poll is under way after a deed. -/
def Deed.polled (before : Option InstanceId) : Deed π → Option InstanceId
  | .polls id => some id
  | .rests _ | .ends .. => none
  | _ => before

/-- The instance whose poll is under way after some deeds. Outside polls there is none. -/
def polling (deeds : List (Deed π)) : Option InstanceId :=
  deeds.foldl Deed.polled none

@[simp] theorem polling_nil : polling ([] : List (Deed π)) = none :=
  rfl

@[simp] theorem polling_concat (deeds : List (Deed π)) (deed : Deed π) :
    polling (deeds ++ [deed]) = deed.polled (polling deeds) := by
  simp [polling]

/-- The same with deeds before them. -/
theorem polling_further (past deeds : List (Deed π)) (deed : Deed π) :
    polling (past ++ (deeds ++ [deed])) = deed.polled (polling (past ++ deeds)) := by
  rw [← List.append_assoc, polling_concat]

/-- Starting instances is no part of a poll. -/
@[simp] theorem polling_starts (deeds : List (Deed π)) (launches : List (Launch π)) :
    polling (deeds ++ launches.map .starts) = polling deeds := by
  induction launches generalizing deeds with
  | nil => simp
  | cons launch rest ih =>
    have moved : deeds ++ (launch :: rest).map Deed.starts =
        (deeds ++ [.starts launch]) ++ rest.map Deed.starts := by
      simp
    rw [moved, ih, polling_concat]
    rfl

/-- On whose behalf calls are made. -/
inductive Discipline where
  /-- During a poll, and only for instances that run. -/
  | confined
  /-- At any time, for any identity. -/
  | free

/-- Whether a call may be made on behalf of an identity. -/
def Discipline.Permits (polled : Option InstanceId) (tables : Tables π) (caller : InstanceId) :
    Discipline → Prop
  | .confined => polled ≠ none ∧ caller ∈ tables.instances.running
  | .free => True

/-- What a deed makes of a session. -/
inductive Step (behaviour : Behaviour π β σ) (discipline : Discipline)
    (polled : Option InstanceId) (session : Session π β σ) : Deed π → Session π β σ → Prop where
  | boots (idle : polled = none) (descriptor : Descriptor) (argv : List Bytes) :
    Step behaviour discipline polled session
      (.boots descriptor argv (session.boot descriptor argv).1) (session.boot descriptor argv).2
  | starts {launch : Launch π} {rest : List (Launch π)} (idle : polled = none)
      (ongoing : session.finished = none) (oldest : session.tables.launches = launch :: rest) :
    Step behaviour discipline polled session (.starts launch)
      (start behaviour { session with tables := { session.tables with launches := rest } } launch)
  | polls {task : Task β} (idle : polled = none) (ongoing : session.finished = none)
      (started : task ∈ session.tasks) :
    Step behaviour discipline polled session (.polls task.id) (session.counted task.id)
  | calls {caller : InstanceId} {request : Request} {progress : Progress} {tables : Tables π}
      (permitted : discipline.Permits polled session.tables caller)
      (performed : session.tables.perform caller request = (progress, tables)) :
    Step behaviour discipline polled session (.calls caller request progress)
      { session with tables := tables }
  | resumes {caller : InstanceId} {pending : Pending} {progress : Progress} {tables : Tables π}
      (permitted : discipline.Permits polled session.tables caller)
      (resumed : session.tables.resume caller pending = (progress, tables)) :
    Step behaviour discipline polled session (.resumes caller pending progress)
      { session with tables := tables }
  | stirs (shared : σ) (woken : List InstanceId) :
    Step behaviour discipline polled session .stirs
      { session with shared := shared, woken := woken }
  | rests {id : InstanceId} (acting : polled = some id) (state : β) (blocked : Option Blocked) :
    Step behaviour discipline polled session (.rests id)
      (session.settle id (.suspended state blocked))
  | ends {id : InstanceId} (acting : polled = some id) (result : Except String Int8) :
    Step behaviour discipline polled session (.ends id result)
      (session.settle id (.ended result))
  | finishes {root : InstanceId} {code : Int8} (idle : polled = none)
      (ongoing : session.finished = none) (booted : session.root = some root)
      (exited : session.tables.instances.exitCode root = some code) :
    Step behaviour discipline polled session (.finishes code) (session.finish code).2

/-- Some deeds that follow others, one after another. -/
inductive Course (behaviour : Behaviour π β σ) (discipline : Discipline) (past : List (Deed π))
    (session : Session π β σ) : List (Deed π) → Session π β σ → Prop where
  | here : Course behaviour discipline past session [] session
  | further {deeds : List (Deed π)} {deed : Deed π} {middle after : Session π β σ}
      (course : Course behaviour discipline past session deeds middle)
      (step : Step behaviour discipline (polling (past ++ deeds)) middle deed after) :
    Course behaviour discipline past session (deeds ++ [deed]) after

/-- All that happened to a session since its tables were made. -/
def History (behaviour : Behaviour π β σ) (discipline : Discipline) (deeds : List (Deed π))
    (session : Session π β σ) : Prop :=
  ∃ config load keepsEvents tables shared, Tables.new config load keepsEvents = .ok tables ∧
    Course behaviour discipline [] (.ofTables tables shared) deeds session

variable {behaviour : Behaviour π β σ} {discipline : Discipline} {past deeds more : List (Deed π)}
  {deed : Deed π} {session middle after : Session π β σ}

/-- A deed is a course of its own. -/
theorem Step.course (step : Step behaviour discipline (polling past) session deed after) :
    Course behaviour discipline past session [deed] after := by
  have course : Course behaviour discipline past session ([] ++ [deed]) after :=
    .further .here (by simpa using step)
  exact course

/-- One course is continued by another. -/
theorem Course.trans (first : Course behaviour discipline past session deeds middle)
    (second : Course behaviour discipline (past ++ deeds) middle more after) :
    Course behaviour discipline past session (deeds ++ more) after := by
  -- The deeds of the second course are added one by one.
  induction second with
  | here => simpa using first
  | further _ step ih =>
    rw [← List.append_assoc]
    exact ih.further (by simpa [List.append_assoc] using step)

/-- A course passes through every one of its deeds. -/
theorem Course.split {earlier later : List (Deed π)}
    (course : Course behaviour discipline past session (earlier ++ deed :: later) after) :
    ∃ before next, Course behaviour discipline past session earlier before ∧
      Step behaviour discipline (polling (past ++ earlier)) before deed next ∧
      Course behaviour discipline (past ++ earlier ++ [deed]) next later after := by
  -- The last deed is the one in question, or it belongs to those that come later.
  generalize same : earlier ++ deed :: later = whole at course
  induction course generalizing later with
  | here => simp at same
  | @further deeds last middle after course step ih =>
    rcases List.eq_nil_or_concat later with rfl | ⟨shorter, final, rfl⟩
    · obtain ⟨rfl, alike⟩ := List.append_inj' same rfl
      obtain rfl := List.singleton_inj.mp alike
      exact ⟨middle, after, course, step, .here⟩
    · have regrouped : (earlier ++ deed :: shorter) ++ [final] = deeds ++ [last] := by
        rw [← same]
        simp
      obtain ⟨rfl, alike⟩ := List.append_inj' regrouped rfl
      obtain rfl := List.singleton_inj.mp alike
      obtain ⟨before, next, first, own, rest⟩ := ih rfl
      refine ⟨before, next, first, own, ?_⟩
      rw [List.concat_eq_append]
      refine rest.further ?_
      simpa [List.append_assoc] using step

/-- A course ends with its last deed. -/
theorem Course.last (course : Course behaviour discipline past session (deeds ++ [deed]) after) :
    ∃ before, Course behaviour discipline past session deeds before ∧
      Step behaviour discipline (polling (past ++ deeds)) before deed after := by
  generalize same : deeds ++ [deed] = whole at course
  cases course with
  | here => simp at same
  | further first step =>
    obtain ⟨rfl, alike⟩ := List.append_inj' same rfl
    obtain rfl := List.singleton_inj.mp alike
    exact ⟨_, first, step⟩

/-- What holds of a session and is kept by every deed holds for good. -/
theorem Course.invariant (holds : List (Deed π) → Session π β σ → Prop)
    (course : Course behaviour discipline past session deeds after) (begins : holds past session)
    (kept : ∀ {earlier : List (Deed π)} {before next : Session π β σ} {deed : Deed π},
      holds earlier before → Step behaviour discipline (polling earlier) before deed next →
      holds (earlier ++ [deed]) next) : holds (past ++ deeds) after := by
  induction course with
  | here => simpa using begins
  | further _ step ih =>
    rw [← List.append_assoc]
    exact kept ih step

namespace History

/-- A history goes on with a course. -/
theorem course (history : History behaviour discipline deeds session)
    (course : Course behaviour discipline deeds session more after) :
    History behaviour discipline (deeds ++ more) after := by
  obtain ⟨config, load, keepsEvents, tables, shared, valid, origin⟩ := history
  exact ⟨config, load, keepsEvents, tables, shared, valid, origin.trans (by simpa using course)⟩

/-- A history goes on with a deed. -/
theorem step (history : History behaviour discipline deeds session)
    (step : Step behaviour discipline (polling deeds) session deed after) :
    History behaviour discipline (deeds ++ [deed]) after :=
  history.course step.course

/-- A history passes through every one of its deeds. -/
theorem split {earlier later : List (Deed π)}
    (history : History behaviour discipline (earlier ++ deed :: later) session) :
    ∃ before next, History behaviour discipline earlier before ∧
      Step behaviour discipline (polling earlier) before deed next := by
  obtain ⟨config, load, keepsEvents, tables, shared, valid, origin⟩ := history
  obtain ⟨before, next, first, own, -⟩ := origin.split
  have history : History behaviour discipline earlier before :=
    ⟨config, load, keepsEvents, tables, shared, valid, first⟩
  exact ⟨before, next, history, by simpa using own⟩

/-- The same with what comes after the deed. -/
theorem passes {earlier later : List (Deed π)}
    (history : History behaviour discipline (earlier ++ deed :: later) session) :
    ∃ before next, History behaviour discipline earlier before ∧
      Step behaviour discipline (polling earlier) before deed next ∧
      Course behaviour discipline (earlier ++ [deed]) next later session := by
  obtain ⟨config, load, keepsEvents, tables, shared, valid, origin⟩ := history
  obtain ⟨before, next, first, own, rest⟩ := origin.split
  have history : History behaviour discipline earlier before :=
    ⟨config, load, keepsEvents, tables, shared, valid, first⟩
  exact ⟨before, next, history, by simpa using own, by simpa using rest⟩

/-- What came first in a history is a history of its own. -/
theorem before {earlier later : List (Deed π)}
    (history : History behaviour discipline (earlier ++ later) session) :
    ∃ before, History behaviour discipline earlier before := by
  cases later with
  | nil => exact ⟨session, by simpa using history⟩
  | cons deed rest =>
    obtain ⟨before, next, past, -⟩ := history.split
    exact ⟨before, past⟩

/-- What holds at the beginning and is kept by every deed holds of every history. -/
theorem invariant (holds : List (Deed π) → Session π β σ → Prop)
    (history : History behaviour discipline deeds session)
    (begins : ∀ {config : Config} {load : Descriptor → Except CallError π} {keepsEvents : Bool}
      {tables : Tables π} (shared : σ), Tables.new config load keepsEvents = .ok tables →
      holds [] (.ofTables tables shared))
    (kept : ∀ {earlier : List (Deed π)} {before next : Session π β σ} {deed : Deed π},
      holds earlier before → Step behaviour discipline (polling earlier) before deed next →
      holds (earlier ++ [deed]) next) : holds deeds session := by
  obtain ⟨config, load, keepsEvents, tables, shared, valid, course⟩ := history
  simpa using course.invariant holds (begins shared valid) kept

end History

/-- Whatever may be done with calls for running instances only may be done anyway. -/
theorem Step.free {polled : Option InstanceId}
    (step : Step behaviour discipline polled session deed after) :
    Step behaviour .free polled session deed after := by
  cases step with
  | boots idle descriptor argv => exact .boots idle descriptor argv
  | starts idle ongoing oldest => exact .starts idle ongoing oldest
  | polls idle ongoing started => exact .polls idle ongoing started
  | calls _ performed => exact .calls trivial performed
  | resumes _ resumed => exact .resumes trivial resumed
  | stirs shared woken => exact .stirs shared woken
  | rests acting state blocked => exact .rests acting state blocked
  | ends acting result => exact .ends acting result
  | finishes idle ongoing booted exited => exact .finishes idle ongoing booted exited

/-- A history with calls for running instances only is a history. -/
theorem History.free (history : History behaviour discipline deeds session) :
    History behaviour .free deeds session := by
  obtain ⟨config, load, keepsEvents, tables, shared, valid, course⟩ := history
  refine ⟨config, load, keepsEvents, tables, shared, valid, ?_⟩
  induction course with
  | here => exact .here
  | further _ step ih => exact ih.further step.free

/-- A session in order, in which whoever is polled is a started instance. -/
structure Steady (polled : Option InstanceId) (session : Session π β σ) : Prop where
  orderly : session.Orderly
  acting : ∀ id, polled = some id → session.finished = none ∧ id ∈ session.liveInstances
  outcome : ∀ outcome, session.finished = some outcome → ∃ code steps, outcome = .exited code steps

/-- Whoever is polled runs. -/
theorem Steady.running {polled : Option InstanceId} (steady : Steady polled session)
    {id : InstanceId} (acting : polled = some id) : id ∈ session.tables.instances.running := by
  -- It is a started instance, and those run.
  obtain ⟨ongoing, live⟩ := steady.acting id acting
  obtain ⟨task, started, rfl⟩ := List.mem_map.mp live
  exact steady.orderly.running_of_task ongoing started

/-- What calls do to the tables keeps a session in order, also once it is over. -/
theorem Orderly.reworked {id : InstanceId} {tables : Tables π} (orderly : session.Orderly)
    (effects : Tables.Effects id session.tables tables) :
    ({ session with tables := tables } : Session π β σ).Orderly := by
  by_cases ongoing : session.finished = none
  · exact orderly.effects ongoing effects session.shared session.woken
  · exact ⟨(effects.sound orderly.sound).1, fun again => absurd again ongoing, orderly.emptied⟩

/-- Every deed keeps a session in order. -/
theorem Step.steady {polled : Option InstanceId} (steady : Steady polled session)
    (step : Step behaviour discipline polled session deed after) :
    Steady (deed.polled polled) after := by
  have task_of (id : InstanceId) (acting : polled = some id) :
      session.finished = none ∧ ∃ task ∈ session.tasks, task.id = id := by
    obtain ⟨ongoing, live⟩ := steady.acting id acting
    exact ⟨ongoing, List.mem_map.mp live⟩
  cases step with
  | boots idle descriptor argv =>
    refine ⟨steady.orderly.boot descriptor argv, fun id acting => ?_, fun outcome ended => ?_⟩
    · simp [Deed.polled, idle] at acting
    · refine steady.outcome outcome ?_
      unfold boot at ended
      split at ended <;> exact ended
  | @starts launch rest idle ongoing oldest =>
    rw [start_eq]
    refine ⟨⟨?_, fun _ => ?_, fun ended => absurd ongoing ended⟩, fun id acting => ?_,
      fun outcome ended => by simp [ongoing] at ended⟩
    · exact ⟨steady.orderly.sound.numbered, steady.orderly.sound.counted,
        steady.orderly.sound.indexed, steady.orderly.sound.consistent⟩
    · -- The oldest launch becomes the last task.
      have population := steady.orderly.population ongoing
      rw [oldest] at population
      simpa [liveInstances, begun] using population
    · simp [Deed.polled, idle] at acting
  | @polls task idle ongoing started =>
    refine ⟨⟨steady.orderly.sound, steady.orderly.population, steady.orderly.emptied⟩,
      fun id acting => ?_, steady.outcome⟩
    obtain rfl := Option.some.inj acting
    exact ⟨ongoing, List.mem_map_of_mem started⟩
  | @calls caller request progress tables _ performed =>
    have effects := session.tables.effects_perform caller request
    rw [performed] at effects
    exact ⟨steady.orderly.reworked effects, steady.acting, steady.outcome⟩
  | @resumes caller pending progress tables _ resumed =>
    have effects := (Tables.Exchanges.of_resume resumed).effects
    exact ⟨steady.orderly.reworked effects, steady.acting, steady.outcome⟩
  | stirs shared woken =>
    exact ⟨⟨steady.orderly.sound, steady.orderly.population, steady.orderly.emptied⟩,
      steady.acting, steady.outcome⟩
  | rests acting state blocked =>
    obtain ⟨ongoing, task, started, rfl⟩ := task_of _ acting
    exact ⟨steady.orderly.settle ongoing started _,
      fun id acting => by simp [Deed.polled] at acting, steady.outcome⟩
  | ends acting result =>
    obtain ⟨ongoing, task, started, rfl⟩ := task_of _ acting
    exact ⟨steady.orderly.settle ongoing started _,
      fun id acting => by simp [Deed.polled] at acting, steady.outcome⟩
  | finishes idle ongoing booted exited =>
    exact ⟨steady.orderly.finish _, fun id acting => by simp [Deed.polled, idle] at acting,
      fun outcome ended => ⟨_, _, (Option.some.inj ended).symm⟩⟩

/-- Whatever happens to a session leaves it in order. -/
theorem History.steady (history : History behaviour discipline deeds session) :
    Steady (polling deeds) session := by
  refine history.invariant (fun deeds session => Steady (polling deeds) session)
    (fun shared valid => ⟨orderly_ofTables valid shared, fun id acting => by simp at acting,
      fun outcome ended => by simp [ofTables] at ended⟩) fun steady step => ?_
  rw [polling_concat]
  exact step.steady steady

/-- What holds at the beginning and is kept by every deed of a session in order holds of every
history. -/
theorem History.induction (holds : List (Deed π) → Session π β σ → Prop)
    (history : History behaviour discipline deeds session)
    (begins : ∀ {config : Config} {load : Descriptor → Except CallError π} {keepsEvents : Bool}
      {tables : Tables π} (shared : σ), Tables.new config load keepsEvents = .ok tables →
      holds [] (.ofTables tables shared))
    (kept : ∀ {earlier : List (Deed π)} {before next : Session π β σ} {deed : Deed π},
      Steady (polling earlier) before → holds earlier before →
      Step behaviour discipline (polling earlier) before deed next →
      holds (earlier ++ [deed]) next) : holds deeds session := by
  have both : Steady (polling deeds) session ∧ holds deeds session := by
    refine history.invariant (fun deeds session => Steady (polling deeds) session ∧
      holds deeds session) ?_ ?_
    · intro config load keepsEvents tables shared valid
      have opened : History behaviour discipline [] (ofTables tables shared) :=
        ⟨_, _, _, _, shared, valid, .here⟩
      exact ⟨opened.steady, begins shared valid⟩
    · intro earlier before next deed ⟨steady, held⟩ step
      exact ⟨by rw [polling_concat]; exact step.steady steady, kept steady held step⟩
  exact both.2

/-- The same where each deed is seen in the light of all that happened before it. -/
theorem History.strong_induction (holds : List (Deed π) → Session π β σ → Prop)
    (history : History behaviour discipline deeds session)
    (begins : ∀ {config : Config} {load : Descriptor → Except CallError π} {keepsEvents : Bool}
      {tables : Tables π} (shared : σ), Tables.new config load keepsEvents = .ok tables →
      holds [] (.ofTables tables shared))
    (kept : ∀ {earlier : List (Deed π)} {before next : Session π β σ} {deed : Deed π},
      History behaviour discipline earlier before → holds earlier before →
      Step behaviour discipline (polling earlier) before deed next →
      holds (earlier ++ [deed]) next) : holds deeds session := by
  obtain ⟨config, load, keepsEvents, tables, shared, valid, course⟩ := history
  induction course with
  | here => exact begins shared valid
  | further course step ih =>
    exact kept ⟨config, load, keepsEvents, tables, shared, valid, course⟩ ih (by simpa using step)

/-- New tables hold nothing. -/
theorem new_eq {config : Config} {load : Descriptor → Except CallError π} {keepsEvents : Bool}
    {tables : Tables π} (valid : Tables.new config load keepsEvents = .ok tables) :
    tables = {
      config := config
      load := load
      pipes := { capacity := config.pipeCapacity, maxEndpoints := config.maxEndpoints }
      instances := { maxInstances := config.maxInstances, maxDepth := config.maxDepth }
      journal := { isKept := keepsEvents } } := by
  unfold Tables.new at valid
  cases validated : config.validate with
  | error error => simp [validated, bind, Except.bind] at valid
  | ok passed =>
    simp only [validated, bind, Except.bind, pure, Except.pure, Except.ok.injEq] at valid
    exact valid.symm

/-- The history of a session of default budgets up to the creation of its first instance. -/
theorem history_solo (behaviour : Behaviour Unit β Unit) (discipline : Discipline) :
    History behaviour discipline [.boots { index := 0, source := 0 } [] (.ok .root)] solo := by
  have valid : Tables.new {} (fun _ => .ok ()) true = .ok (⟨{}, fun _ => .ok (),
      ⟨4096, 64, .first, 0, []⟩, ⟨16, 8, 0, []⟩, [], {}, {}, none⟩ : Tables Unit) := rfl
  have opened : History behaviour discipline [] (ofTables _ ()) := ⟨_, _, _, _, (), valid, .here⟩
  exact opened.step (.boots rfl _ [])

/-- Programs that do nothing by themselves. -/
def quiet : Behaviour Unit Unit Unit where
  start _ _ := ()
  next _ _ _ := (.park, (), ())

/-- The first instance hands one end of a pipe to a child. The child closes it and exits, and then
its code is learnt. -/
def bequest : List (Deed Unit) :=
  [.boots { index := 0, source := 0 } [] (.ok .root), .starts ⟨.root, (), [], []⟩, .polls .root,
    .calls .root .pipe (.finished (.ok (.endpoints .first ⟨2, by decide⟩))),
    .calls .root (.spawn { index := 0, source := 0 } [] [⟨2, by decide⟩])
      (.finished (.ok (.instance ⟨1⟩))),
    .rests .root, .starts ⟨⟨1⟩, (), [], [⟨2, by decide⟩]⟩, .polls ⟨1⟩,
    .calls ⟨1⟩ (.close ⟨2, by decide⟩) (.finished (.ok .done)), .ends ⟨1⟩ (.ok 7), .polls .root,
    .calls .root (.join ⟨1⟩) (.finished (.ok (.code 7)))]

/-- The pipe and the log after that bequest. -/
theorem exists_bequest : ∃ session, History quiet .free bequest session ∧
    session.tables.pipes.pipes =
      [⟨⟨.first, .root, true, []⟩, ⟨⟨2, by decide⟩, ⟨1⟩, false, []⟩⟩] ∧
    session.tables.journal = { entries :=
      [.spawned .root none [], .pipeCreated .root .first ⟨2, by decide⟩,
        .spawned ⟨1⟩ (some .root) [⟨2, by decide⟩], .pipeClosed ⟨1⟩ ⟨2, by decide⟩,
        .exited ⟨1⟩ 7 none, .joined .root ⟨1⟩ 7] } := by
  have started := (history_solo quiet .free).step (.starts rfl rfl rfl)
  have polled := started.step (.polls rfl rfl (.head _))
  have connected := polled.step (.calls trivial (rfl : Tables.perform _ .root .pipe = _))
  have spawned := connected.step (.calls trivial
    (rfl : Tables.perform _ .root (.spawn { index := 0, source := 0 } [] [⟨2, by decide⟩]) = _))
  have rested := spawned.step (.rests rfl () none)
  have followed := rested.step (.starts rfl rfl rfl)
  have again := followed.step (.polls rfl rfl (.tail _ (.head _)))
  have closed := again.step (.calls trivial
    (rfl : Tables.perform _ ⟨1⟩ (.close ⟨2, by decide⟩) = _))
  have ended := closed.step (.ends rfl (.ok 7))
  have last := ended.step (.polls rfl rfl (.head _))
  have history : History quiet .free bequest _ :=
    last.step (.calls trivial (rfl : Tables.perform _ .root (.join ⟨1⟩) = _))
  exact ⟨_, history, rfl, rfl⟩

end Progeny.Session
