import Mathlib.Data.List.Nodup
import Progeny.Proofs.Session.Spans

/-! What a behaviour makes of a session is a course in which calls are made for the instance that is
polled, one after another, and that instance runs. -/

namespace Progeny.Session

variable {π β σ : Type} {behaviour : Behaviour π β σ} {past : List (Deed π)}
  {session middle after : Session π β σ}

/-- The call in which an instance waits when its poll ends. -/
def Turn.blocked? : Turn β → Option Blocked
  | .ended _ => none
  | .suspended _ waits => waits

/-- The call in which each started instance waits. -/
def waitsIn (session : Session π β σ) (id : InstanceId) : Option Blocked :=
  (session.task? id).bind Task.blocked

/-- Deeds that come in turn after others, and lead an instance from the call in which it waits to
another one. -/
def InOrder (past deeds : List (Deed π)) (id : InstanceId) (before after : Option Blocked) : Prop :=
  Sequential past → underWay past id = before → Sequential (past ++ deeds) ∧
    underWay (past ++ deeds) = Function.update (underWay past) id after

/-- Deeds in turn that tell in which calls instances wait. -/
structure Reflects (deeds : List (Deed π)) (session : Session π β σ) : Prop where
  sequential : Sequential deeds
  waits : underWay deeds = session.waitsIn

/-- One more deed in turn tells in which calls instances wait after it. -/
theorem Reflects.concat {deeds : List (Deed π)} {deed : Deed π} (sequential : Sequential deeds)
    (inTurn : deed.InTurn (polling deeds) (underWay deeds))
    (waits : deed.underWay (underWay deeds) = after.waitsIn) : Reflects (deeds ++ [deed]) after :=
  ⟨sequential_concat.mpr ⟨sequential, inTurn⟩, by rw [underWay_concat, waits]⟩

/-- Instances that were just started wait in no call. -/
@[simp] theorem waitsIn_launch : (session.launch behaviour).waitsIn = session.waitsIn := by
  funext id
  simp only [waitsIn, task?, launch_tasks, List.find?_append]
  cases session.tasks.find? (·.id = id) with
  | some task => rfl
  | none =>
    -- Whoever is found is new, and so in no call.
    cases found : (session.tables.launches.map (begun behaviour)).find? (·.id = id) with
    | none => rfl
    | some task =>
      obtain ⟨launch, -, rfl⟩ := List.mem_map.mp (List.mem_of_find?_eq_some found)
      rfl

/-- Where no two tasks are of one instance, each is found for its instance. -/
theorem waitsIn_of_mem (apart : session.liveInstances.Nodup) {task : Task β}
    (started : task ∈ session.tasks) : session.waitsIn task.id = task.blocked := by
  cases found : session.task? task.id with
  | none => exact absurd (List.mem_map_of_mem started) (task?_eq_none.mp found)
  | some other =>
    obtain ⟨member, same⟩ := task?_eq_some found
    obtain rfl := List.inj_on_of_nodup_map apart member started same
    simp [waitsIn, found]

/-- After a poll its instance waits where it stands, and all others wait as before. -/
theorem waitsIn_settle {id : InstanceId} (live : id ∈ session.liveInstances) (turn : Turn β) :
    (session.settle id turn).waitsIn = Function.update session.waitsIn id turn.blocked? := by
  funext other
  cases turn with
  | ended result =>
    show ((session.tasks.filter _).find? _).bind Task.blocked = _
    rw [List.find?_filter]
    by_cases own : other = id
    · subst own
      rw [List.find?_eq_none.mpr (by simp), Function.update_self]
      rfl
    · -- Whoever is looked for is not the one that ended.
      have same : (fun task : Task β =>
          decide (decide (task.id ≠ id) = true ∧ decide (task.id = other) = true)) =
            fun task => decide (task.id = other) := by
        funext task
        by_cases here : task.id = other <;> simp [here, own]
      rw [same, Function.update_of_ne own]
      rfl
  | suspended state waits =>
    show ((session.tasks.map _).find? _).bind Task.blocked = _
    have kept : ((fun task : Task β => decide (task.id = other)) ∘ fun task =>
        if task.id = id then ⟨id, state, waits⟩ else task) =
          fun task => decide (task.id = other) := by
      funext task
      by_cases here : task.id = id <;> simp [here]
    rw [List.find?_map, kept]
    by_cases own : other = id
    · subst own
      cases found : session.task? other with
      | none => exact absurd live (task?_eq_none.mp found)
      | some task =>
        have named := (task?_eq_some found).2
        unfold task? at found
        simp [found, named, Turn.blocked?]
    · rw [Function.update_of_ne own]
      show _ = (session.tasks.find? _).bind Task.blocked
      cases found : session.tasks.find? (fun task => decide (task.id = other)) with
      | none => rfl
      | some task =>
        have named : task.id = other := (task?_eq_some found).2
        simp [named, own]

namespace InOrder

variable {deeds more : List (Deed π)} {id : InstanceId} {before after waits : Option Blocked}

/-- Where nothing is done an instance stays in its call. -/
theorem refl (past : List (Deed π)) (id : InstanceId) (waits : Option Blocked) :
    InOrder past [] id waits waits := by
  intro sequential same
  simp only [List.append_nil, ← same, Function.update_eq_self]
  exact ⟨sequential, trivial⟩

/-- Deeds in a row lead from the first call to the last. -/
theorem trans (first : InOrder past deeds id before waits)
    (second : InOrder (past ++ deeds) more id waits after) :
    InOrder past (deeds ++ more) id before after := by
  intro sequential same
  obtain ⟨further, underWay⟩ := first sequential same
  obtain ⟨last, underWayToo⟩ := second further (by rw [underWay, Function.update_self])
  rw [← List.append_assoc]
  exact ⟨last, by rw [underWayToo, underWay, Function.update_idem]⟩

/-- What touches no call is in turn. -/
theorem stirs (past : List (Deed π)) (id : InstanceId) (waits : Option Blocked) :
    InOrder past [.stirs] id waits waits := by
  intro sequential same
  rw [underWay_concat]
  refine ⟨sequential_concat.mpr ⟨sequential, trivial⟩, ?_⟩
  simp [Deed.underWay, ← same]

/-- Whoever waits in no call may begin one. -/
theorem calls (acting : polling past = some id) (request : Request) (progress : Progress) :
    InOrder past [.calls id request progress] id none progress.blocked? := by
  intro sequential free
  rw [underWay_concat]
  exact ⟨sequential_concat.mpr ⟨sequential, acting, free⟩, rfl⟩

/-- Whoever waits in a call may go on with it. -/
theorem resumes (acting : polling past = some id) (blocked : Blocked) (progress : Progress) :
    InOrder past [.resumes id blocked.call progress] id (some blocked) progress.blocked? := by
  intro sequential held
  rw [underWay_concat]
  exact ⟨sequential_concat.mpr ⟨sequential, acting, by rw [held, Option.map_some]⟩, rfl⟩

end InOrder

/-- To start all created instances is to start one after another. -/
theorem course_launch (idle : polling past = none) (ongoing : session.finished = none) :
    Course behaviour discipline past session (session.tables.launches.map .starts)
      (session.launch behaviour) := by
  -- The first start leaves the rest of the list.
  generalize same : session.tables.launches = launches
  induction launches generalizing past session with
  | nil =>
    rw [launch_of_nil same]
    exact .here
  | cons launch rest ih =>
    have step : Step behaviour discipline (polling past) session (.starts launch)
        (start behaviour { session with tables := { session.tables with launches := rest } }
          launch) := .starts idle ongoing same
    have finished : (start behaviour { session with
        tables := { session.tables with launches := rest } } launch).finished = none := by
      rw [start_eq]
      exact ongoing
    have idleToo : polling (past ++ [.starts launch]) = none := by simp [Deed.polled, idle]
    have further := ih idleToo finished (by rw [start_eq])
    have alike : (start behaviour { session with
        tables := { session.tables with launches := rest } } launch).launch behaviour =
          session.launch behaviour := by
      simp only [Session.launch, same, List.foldl_cons, start_eq, woken_wake]
    rw [alike] at further
    exact step.course.trans further

/-- A stretch of a poll: a course of its instance alone, which leads it from the call in which it
waits to another one. -/
structure Stretch (behaviour : Behaviour π β σ) (id : InstanceId) (past deeds : List (Deed π))
    (session after : Session π β σ) (before waits : Option Blocked) : Prop where
  course : Course behaviour .confined past session deeds after
  acting : polling (past ++ deeds) = some id
  inOrder : InOrder past deeds id before waits

namespace Stretch

variable {id : InstanceId} {deeds more : List (Deed π)} {before between waits : Option Blocked}
  {progress : Progress} {tables : Tables π}

/-- One stretch is continued by another. -/
theorem trans (first : Stretch behaviour id past deeds session middle before between)
    (second : Stretch behaviour id (past ++ deeds) more middle after between waits) :
    Stretch behaviour id past (deeds ++ more) session after before waits where
  course := first.course.trans second.course
  acting := by rw [← List.append_assoc, second.acting]
  inOrder := first.inOrder.trans second.inOrder

/-- An instance may change what programs share. -/
theorem stirs (acting : polling past = some id) (session : Session π β σ) (shared : σ)
    (woken : List InstanceId) (waits : Option Blocked) : Stretch behaviour id past [.stirs] session
      { session with shared := shared, woken := woken } waits waits where
  course := (Step.stirs shared woken).course
  acting := by simp [Deed.polled, acting]
  inOrder := .stirs past id waits

/-- It may begin a call, if it waits in none. -/
theorem calls {request : Request} (acting : polling past = some id)
    (running : id ∈ session.tables.instances.running)
    (performed : session.tables.perform id request = (progress, tables)) :
    Stretch behaviour id past [.calls id request progress] session
      { session with tables := tables } none progress.blocked? where
  course := by
    have permitted : Discipline.confined.Permits (polling past) session.tables id :=
      ⟨by simp [acting], running⟩
    exact (Step.calls permitted performed).course
  acting := by simp [Deed.polled, acting]
  inOrder := .calls acting request progress

/-- It may go on with the call in which it waits. -/
theorem resumes {blocked : Blocked} (acting : polling past = some id)
    (running : id ∈ session.tables.instances.running)
    (resumed : session.tables.resume id blocked.call = (progress, tables)) :
    Stretch behaviour id past [.resumes id blocked.call progress] session
      { session with tables := tables } (some blocked) progress.blocked? where
  course := by
    have permitted : Discipline.confined.Permits (polling past) session.tables id :=
      ⟨by simp [acting], running⟩
    exact (Step.resumes permitted resumed).course
  acting := by simp [Deed.polled, acting]
  inOrder := .resumes acting blocked progress

end Stretch

/-- The actions of an instance are calls and changes of what programs share. -/
theorem Acts.stretch {id : InstanceId} {state : β} {notice : Notice}
    {result : Turn β × Session π β σ} (acts : Acts behaviour id state notice session result)
    (acting : polling past = some id) (sound : session.tables.Sound)
    (running : id ∈ session.tables.instances.running) :
    ∃ deeds, Stretch behaviour id past deeds session result.2 none result.1.blocked? := by
  -- Before every call the instance still runs, since its calls end nobody.
  induction acts generalizing past with
  | exit | fault | park => exact ⟨_, .stirs acting _ _ _ none⟩
  | @inspect _ _ _ session shared _ _ _ ih | @step _ _ _ session shared _ _ _ ih =>
    have first : Stretch behaviour id past _ _ _ _ _ :=
      .stirs acting session shared session.woken none
    obtain ⟨deeds, second⟩ := ih first.acting sound running
    exact ⟨_, first.trans second⟩
  | @wake _ _ _ session shared target _ _ _ ih =>
    have same : (({ session with shared := shared } : Session π β σ).wake target) =
        { session with shared := shared, woken := (session.wake target).woken } := by
      unfold Session.wake
      dsimp only
      split <;> rfl
    rw [same] at ih
    have first : Stretch behaviour id past _ _ _ _ _ :=
      .stirs acting session shared (session.wake target).woken none
    obtain ⟨deeds, second⟩ := ih first.acting sound running
    exact ⟨_, first.trans second⟩
  | @finish _ _ _ session shared request _ _ _ _ performed _ ih =>
    have effects := session.tables.effects_perform id request
    rw [performed] at effects
    obtain ⟨soundToo, -, new, -, more⟩ := effects.sound sound
    have first : Stretch behaviour id past _ _ _ _ _ :=
      .stirs acting session shared session.woken none
    have called := first.trans (.calls first.acting running performed)
    obtain ⟨deeds, second⟩ := ih called.acting soundToo
      (by rw [more]; exact List.mem_append_left _ running)
    exact ⟨_, called.trans second⟩
  | @block _ _ _ session shared _ _ _ _ performed =>
    have first : Stretch behaviour id past _ _ _ _ _ :=
      .stirs acting session shared session.woken none
    have called := first.trans (.calls first.acting running performed)
    exact ⟨_, called⟩

/-- So is a poll before its end. -/
theorem Proceeds.stretch {task : Task β} {result : Turn β × Session π β σ}
    (goes : Proceeds behaviour task session result) (acting : polling past = some task.id)
    (sound : session.tables.Sound) (running : task.id ∈ session.tables.instances.running) :
    ∃ deeds, Stretch behaviour task.id past deeds session result.2 task.blocked
      result.1.blocked? := by
  -- A call whose wait is over is tried again before anything else is done.
  cases goes with
  | free idle acts =>
    rw [idle]
    exact acts.stretch acting sound running
  | @answered blocked _ _ _ waits retried acts =>
    have effects := session.tables.effects_retry task.id blocked
    rw [retried] at effects
    obtain ⟨soundToo, -, new, -, more⟩ := effects.sound sound
    unfold Tables.retry at retried
    split at retried
    · have first : Stretch behaviour task.id past _ _ _ _ _ := .resumes acting running retried
      obtain ⟨deeds, second⟩ := acts.stretch first.acting soundToo
        (by rw [more]; exact List.mem_append_left _ running)
      rw [waits]
      exact ⟨_, first.trans second⟩
    · simp at retried
  | @stays blocked still tables waits retried =>
    rw [waits]
    unfold Tables.retry at retried
    split at retried
    · exact ⟨_, .resumes acting running retried⟩
    · obtain ⟨same, rfl⟩ := Prod.mk.inj retried
      obtain rfl := Progress.blocked.inj same
      exact ⟨[], .here, by simpa using acting, .refl past task.id (some blocked)⟩

/-- A poll is a course from its beginning to its end. -/
theorem Polls.course {task : Task β} (polled : Polls behaviour task session after)
    (idle : polling past = none) (orderly : session.Orderly) (ongoing : session.finished = none)
    (started : task ∈ session.tasks) :
    ∃ deeds, Course behaviour .confined past session deeds after ∧
      polling (past ++ deeds) = none ∧
      (Reflects past session → Reflects (past ++ deeds) after) := by
  obtain ⟨turn, middle, goes, rfl⟩ := polled.proceeds
  have begins : Step behaviour .confined (polling past) session (.polls task.id)
      (session.counted task.id) := .polls idle ongoing started
  have acting : polling (past ++ [.polls task.id]) = some task.id := by simp [Deed.polled]
  obtain ⟨deeds, stretch⟩ := goes.stretch acting orderly.sound
    (orderly.running_of_task ongoing started)
  have whole := begins.course.trans stretch.course
  have still := stretch.acting
  rw [List.append_assoc] at still
  have led (reflects : Reflects past session) :
      Sequential (past ++ ([.polls task.id] ++ deeds)) ∧
        underWay (past ++ ([.polls task.id] ++ deeds)) =
          Function.update session.waitsIn task.id turn.blocked? := by
    -- Of all tasks the one that is polled is found for its identity.
    have held := waitsIn_of_mem (List.nodup_append.mp (orderly.nodup ongoing)).1 started
    have before : Reflects (past ++ [.polls task.id]) session :=
      .concat reflects.sequential trivial reflects.waits
    have after := stretch.inOrder before.sequential (by rw [before.waits, held])
    rwa [before.waits, List.append_assoc] at after
  have settled : (middle.settle task.id turn).waitsIn =
      Function.update session.waitsIn task.id turn.blocked? := by
    have frame := goes.frame
    dsimp only at frame
    have live : task.id ∈ middle.liveInstances := by
      rw [frame]
      exact List.mem_map_of_mem started
    rw [waitsIn_settle live, frame]
    rfl
  cases turn with
  | ended result =>
    refine ⟨_, whole.further (.ends still result), polling_further past _ _, fun reflects => ?_⟩
    obtain ⟨sequential, waits⟩ := led reflects
    rw [← List.append_assoc]
    refine .concat sequential ?_ (waits.trans settled.symm)
    show underWay (past ++ ([.polls task.id] ++ deeds)) task.id = none
    rw [waits, Function.update_self]
    rfl
  | suspended state blocked =>
    refine ⟨_, whole.further (.rests still state blocked), polling_further past _ _,
      fun reflects => ?_⟩
    obtain ⟨sequential, waits⟩ := led reflects
    rw [← List.append_assoc]
    exact .concat sequential trivial (waits.trans settled.symm)

/-- A round that is not the last is a course from one moment outside polls to another. -/
theorem RoundCase.course {root : InstanceId} {left rest : Option Nat}
    (next : RoundCase behaviour root left session (.further rest middle))
    (idle : polling past = none) (orderly : session.Orderly) (ongoing : session.finished = none) :
    ∃ deeds, Course behaviour .confined past session deeds middle ∧
      polling (past ++ deeds) = none ∧ middle.Orderly ∧
      (Reflects past session → Reflects (past ++ deeds) middle) := by
  -- Whatever was created is started first.
  have launched : Course behaviour .confined past session (session.tables.launches.map .starts)
      (session.launch behaviour) := course_launch idle ongoing
  have idleToo := (polling_starts past session.tables.launches).trans idle
  have orderlyToo : (session.launch behaviour).Orderly := orderly.launch ongoing
  have ongoingToo : (session.launch behaviour).finished = none := launch_finished.trans ongoing
  have reflectsToo (reflects : Reflects past session) :
      Reflects (past ++ session.tables.launches.map .starts) (session.launch behaviour) :=
    ⟨sequential_starts reflects.sequential _, by
      rw [underWay_starts, waitsIn_launch, reflects.waits]⟩
  cases next with
  | @passes id _ _ _ _ =>
    have step : Step behaviour .confined (polling (past ++ session.tables.launches.map .starts))
        (session.launch behaviour) .stirs ((session.launch behaviour).unwake id) :=
      .stirs _ _
    refine ⟨_, launched.further step, by rw [polling_further]; exact idleToo,
      ⟨orderlyToo.sound, orderlyToo.population, orderlyToo.emptied⟩, fun reflects => ?_⟩
    have before := reflectsToo reflects
    rw [← List.append_assoc]
    exact .concat before.sequential trivial before.waits
  | polls _ _ _ found polled =>
    obtain ⟨started, -⟩ := task?_eq_some found
    obtain ⟨deeds, course, still, further⟩ := polled.course idleToo orderlyToo ongoingToo started
    refine ⟨_, launched.trans course, by simpa using still,
      orderlyToo.polls ongoingToo started polled, fun reflects => ?_⟩
    rw [← List.append_assoc]
    exact further (reflectsToo reflects)

/-- A run leads to its last round by a course, and the last round is what it returns from. -/
theorem Runs.course {root : InstanceId} {left : Option Nat} {run : Run π β σ}
    (runs : Runs behaviour root left session run) (idle : polling past = none)
    (orderly : session.Orderly) (ongoing : session.finished = none)
    (booted : session.root = some root) :
    ∃ deeds last rest, Course behaviour .confined past session deeds last ∧
      polling (past ++ deeds) = none ∧ last.Orderly ∧ last.finished = none ∧
      last.root = some root ∧ RoundCase behaviour root rest last (.ends run) := by
  -- Round by round, a course is added.
  induction runs generalizing past with
  | @ends left _ _ last =>
    exact ⟨[], _, left, .here, by simpa using idle, orderly, ongoing, booted, last⟩
  | further next _ ih =>
    obtain ⟨first, course, idleToo, orderlyToo, -⟩ := next.course idle orderly ongoing
    obtain ⟨deeds, last, rest, more, still, found⟩ := ih idleToo orderlyToo
      (next.frame.1.trans ongoing) (next.frame.2.trans booted)
    exact ⟨first ++ deeds, last, rest, course.trans more, by simpa using still, found⟩

/-- Wherever a session comes with programs of a behaviour, it has a history in which calls are made
in polls and for running instances only, one after another by each instance. -/
theorem Reached.history (reached : Reached behaviour session) :
    ∃ deeds, History behaviour .confined deeds session ∧ polling deeds = none ∧
      Reflects deeds session := by
  induction reached with
  | opens valid shared =>
    exact ⟨[], ⟨_, _, _, _, shared, valid, .here⟩, rfl, sequential_nil, rfl⟩
  | @boots session _ descriptor argv ih =>
    obtain ⟨deeds, history, idle, reflects⟩ := ih
    have kept : (session.boot descriptor argv).2.waitsIn = session.waitsIn := by
      unfold Session.boot
      split <;> rfl
    exact ⟨_, history.step (.boots idle descriptor argv), by simp [Deed.polled, idle],
      .concat reflects.sequential trivial (reflects.waits.trans kept.symm)⟩
  | further _ ongoing _ next ih =>
    obtain ⟨deeds, history, idle, reflects⟩ := ih
    obtain ⟨more, course, still, -, further⟩ := next.course idle history.steady.orderly ongoing
    exact ⟨_, history.course course, still, further reflects⟩
  | @ends session _ _ _ _ _ ongoing booted last ih =>
    obtain ⟨deeds, history, idle, reflects⟩ := ih
    cases last with
    | inconsistent => exact ⟨deeds, history, idle, reflects⟩
    | exits _ exited =>
      exact ⟨_, history.step (.finishes idle ongoing booted exited), by simp [Deed.polled, idle],
        .concat reflects.sequential trivial rfl⟩
    | pauses | stalls =>
      refine ⟨_, history.course (course_launch idle ongoing), (polling_starts _ _).trans idle,
        sequential_starts reflects.sequential _, ?_⟩
      rw [underWay_starts, waitsIn_launch, reflects.waits]

end Progeny.Session
