import Mathlib.Data.List.TakeWhile
import Progeny.Proofs.Session.Limits
import Progeny.Proofs.Session.Waiting

/-! Instances take turns: whoever is ready is polled before anybody else is polled twice. -/

namespace Progeny.Session

variable {π β σ : Type} {behaviour : Behaviour π β σ} {session middle after : Session π β σ}

/-! The search for the next instance goes around the identities like the hand of a clock. -/

/-- How far a search that begins at one number has to go to come to another one. Behind the largest
number it begins again. -/
def ahead (start word : UInt64) : Nat :=
  (word - start).toNat

/-- The number at which a session begins its search, the one behind the instance that acted last. -/
def hand (session : Session π β σ) : UInt64 :=
  match session.lastPolled with
  | none => 0
  | some last => last.word + 1

@[simp] theorem hand_launch : (session.launch behaviour).hand = session.hand := by
  rw [hand, launch_lastPolled]
  rfl

/-- A poll leaves the hand behind its instance. -/
theorem Polls.hand {task : Task β} (polled : Polls behaviour task session after) :
    after.hand = task.id.word + 1 := by
  obtain ⟨turn, middle, goes, rfl⟩ := polled.proceeds
  have frame := goes.frame
  dsimp only at frame
  rw [frame]
  cases turn <;> rfl

/-- Different instances are at different distances. -/
theorem eq_of_ahead {start : UInt64} {one other : InstanceId}
    (same : ahead start one.word = ahead start other.word) : one = other := by
  have bounds := And.intro start.toNat_lt (And.intro one.word.toNat_lt other.word.toNat_lt)
  simp only [ahead, UInt64.toNat_sub] at same
  exact InstanceId.eq_of_toNat (by omega)

/-- No distance is as great as there are numbers. -/
theorem ahead_lt (start word : UInt64) : ahead start word < 2 ^ 64 :=
  (word - start).toNat_lt

/-- The number at which a search begins is the first that it comes to. -/
theorem ahead_self (start : UInt64) : ahead start start = 0 := by
  simp [ahead]

/-- The number before the one at which a search begins is the last that it comes to. -/
theorem ahead_behind (word : UInt64) : ahead (word + 1) word = 2 ^ 64 - 1 := by
  have bound := word.toNat_lt
  simp only [ahead, UInt64.toNat_sub, UInt64.toNat_add, UInt64.toNat_one]
  omega

/-- A search that comes to a number before another one has not begun again. -/
theorem ahead_succ {start word far : UInt64} (before : ahead start word < ahead start far) :
    ahead start (word + 1) = ahead start word + 1 := by
  have bounds := And.intro start.toNat_lt (And.intro word.toNat_lt far.toNat_lt)
  simp only [ahead, UInt64.toNat_sub, UInt64.toNat_add, UInt64.toNat_one] at before ⊢
  omega

/-- What a search finds on its way to a number is on the way as well if it began earlier. -/
theorem ahead_between {start hand near far : UInt64}
    (passed : ahead start hand ≤ ahead start far) (nearer : ahead hand near ≤ ahead hand far) :
    ahead start hand ≤ ahead start near ∧ ahead start near ≤ ahead start far := by
  have bounds := And.intro start.toNat_lt (And.intro hand.toNat_lt
    (And.intro near.toNat_lt far.toNat_lt))
  simp only [ahead, UInt64.toNat_sub] at passed nearer ⊢
  omega

/-- A search from behind a number comes to the greater ones first. -/
theorem ahead_wraps {last one other : UInt64} (greater : last < one) (rest : ¬last < other) :
    ahead (last + 1) one < ahead (last + 1) other := by
  have bounds := And.intro last.toNat_lt (And.intro one.toNat_lt other.toNat_lt)
  rw [UInt64.lt_iff_toNat_lt] at greater rest
  simp only [ahead, UInt64.toNat_sub, UInt64.toNat_add, UInt64.toNat_one]
  omega

/-- It comes to the greater ones in their order, and so to the others. -/
theorem ahead_le {last one other : UInt64} (alike : last < one ↔ last < other)
    (ordered : one ≤ other) : ahead (last + 1) one ≤ ahead (last + 1) other := by
  have bounds := And.intro last.toNat_lt (And.intro one.toNat_lt other.toNat_lt)
  rw [UInt64.lt_iff_toNat_lt, UInt64.lt_iff_toNat_lt] at alike
  rw [UInt64.le_iff_toNat_le] at ordered
  simp only [ahead, UInt64.toNat_sub, UInt64.toNat_add, UInt64.toNat_one]
  omega

/-- The next instance is the first ready one that the search comes to. -/
theorem ahead_nextReady_le {id other : InstanceId} (next : session.nextReady = some id)
    (ready : other ∈ session.ready) :
    ahead session.hand id.word ≤ ahead session.hand other.word := by
  unfold nextReady at next
  unfold hand
  cases acted : session.lastPolled with
  | none =>
    rw [acted] at next
    simpa [ahead, UInt64.le_iff_toNat_le] using least?_le next ready
  | some last =>
    rw [acted] at next
    dsimp only at next ⊢
    cases found : least? (session.ready.filter fun id => last.word < id.word) with
    | some least =>
      rw [found] at next
      obtain rfl := Option.some.inj next
      -- It lies behind the last one, and none that does so is nearer.
      have behind : last.word < least.word := by
        simpa using (List.mem_filter.mp (mem_of_least? found)).2
      by_cases also : last.word < other.word
      · apply ahead_le (iff_of_true behind also)
        exact least?_le found (List.mem_filter.mpr ⟨ready, by simpa using also⟩)
      · exact Nat.le_of_lt (ahead_wraps behind also)
    | none =>
      rw [found] at next
      -- None lies behind the last one, so the search has begun again.
      have none (id : InstanceId) (ready : id ∈ session.ready) : ¬last.word < id.word := by
        simpa using List.filter_eq_nil_iff.mp (least?_eq_none.mp found) id ready
      apply ahead_le (iff_of_false (none id (mem_of_least? next)) (none other ready))
      exact least?_le next ready

/-! Whoever is ready stays so until its poll. -/

/-- An instance that was started, has not ended, and is ready. -/
structure Awaits (session : Session π β σ) (id : InstanceId) : Prop where
  live : id ∈ session.liveInstances
  ready : id ∈ session.ready

namespace Awaits

variable {id : InstanceId} (awaits : session.Awaits id)
include awaits

/-- Starting others changes nothing for an instance. -/
theorem launch : (session.launch behaviour).Awaits id where
  live := by
    rw [liveInstances, launch_tasks, List.map_append]
    exact List.mem_append_left _ awaits.live
  ready := by
    rw [mem_ready, mem_woken_launch, launch_tasks]
    rcases mem_ready.mp awaits.ready with woken | ⟨task, started, rfl, released⟩
    · exact .inl (.inl woken)
    · refine .inr ⟨task, List.mem_append_left _ started, rfl, ?_⟩
      unfold isReleased at released ⊢
      rw [launch_tables]
      exact released

/-- Passing over an instance that has ended changes nothing for those that have not. -/
theorem unwake {other : InstanceId} (gone : session.task? other = none) :
    (session.unwake other).Awaits id where
  live := awaits.live
  ready := by
    refine (mem_ready_unwake gone).mpr ⟨awaits.ready, ?_⟩
    rintro rfl
    exact task?_eq_none.mp gone awaits.live

/-- Whatever an instance does in its poll, the others that were ready still are. -/
theorem polls (orderly : session.Orderly) (waiting : session.Waiting)
    (ongoing : session.finished = none) {task : Task β} (started : task ∈ session.tasks)
    (polled : Polls behaviour task session after) (differ : id ≠ task.id) : after.Awaits id := by
  have undisturbed := orderly.undisturbed ongoing started polled
  obtain ⟨turn, middle, goes, rfl⟩ := polled.proceeds
  have frame := goes.frame
  dsimp only at frame
  have tasks : middle.tasks = session.tasks := by
    rw [frame]
    rfl
  obtain ⟨held, there, rfl⟩ := List.mem_map.mp awaits.live
  have kept {other : Task β} (there : other ∈ session.tasks) (differ : other.id ≠ task.id) :
      other ∈ (middle.settle task.id turn).tasks :=
    mem_tasks_settle_of_ne (tasks ▸ there) differ turn
  refine ⟨List.mem_map_of_mem (kept there differ), mem_ready.mpr ?_⟩
  rcases mem_ready.mp awaits.ready with woken | ⟨other, present, same, released⟩
  · -- A poll takes nobody else off those made ready.
    have still := goes.woken (List.mem_filter.mpr ⟨woken, by simpa using differ⟩)
    refine .inl ?_
    cases turn <;> exact still
  · -- What its call waits for has happened for good.
    refine .inr ⟨other, kept present (same ▸ differ), same, ?_⟩
    unfold isReleased at released ⊢
    cases waits : other.blocked with
    | none => simp [waits] at released
    | some blocked =>
      rw [waits] at released
      exact (waiting other present blocked waits).isOver orderly.sound
        (orderly.running_of_task ongoing started) undisturbed released

end Awaits

/-- Rounds of the runs of a session, one after another and in any modes, with the instances that
are polled in them. -/
inductive Passage (behaviour : Behaviour π β σ) (session : Session π β σ) :
    List InstanceId → Session π β σ → Prop where
  | here : Passage behaviour session [] session
  | passes {ids : List InstanceId} {middle : Session π β σ} {root id : InstanceId}
      (passage : Passage behaviour session ids middle) (ongoing : middle.finished = none)
      (booted : middle.root = some root) (underway : Underway root middle)
      (next : (middle.launch behaviour).nextReady = some id)
      (gone : (middle.launch behaviour).task? id = none) :
    Passage behaviour session ids ((middle.launch behaviour).unwake id)
  | polls {ids : List InstanceId} {middle after : Session π β σ} {root id : InstanceId}
      {task : Task β} (passage : Passage behaviour session ids middle)
      (ongoing : middle.finished = none) (booted : middle.root = some root)
      (underway : Underway root middle) (next : (middle.launch behaviour).nextReady = some id)
      (found : (middle.launch behaviour).task? id = some task)
      (polled : Polls behaviour task (middle.launch behaviour) after) :
    Passage behaviour session (ids ++ [id]) after
  | ends {ids : List InstanceId} {middle after : Session π β σ} {root : InstanceId}
      {left : Option Nat} {result : Except SessionError RunOutcome}
      (passage : Passage behaviour session ids middle) (ongoing : middle.finished = none)
      (booted : middle.root = some root)
      (last : RoundCase behaviour root left middle (.ends (result, after))) :
    Passage behaviour session ids after

namespace Passage

variable {ids : List InstanceId} (passage : Passage behaviour session ids after)
include passage

/-- Wherever rounds lead, the session comes there. -/
theorem reached (reached : Reached behaviour session) : Reached behaviour after := by
  -- Whatever the limit of its run is, a round is one of a run without any.
  induction passage with
  | here => exact reached
  | @passes _ middle root _ _ ongoing booted underway next gone ih =>
    have round : RoundCase behaviour root none middle _ := .passes underway nofun next gone
    exact ih.further ongoing booted round
  | @polls _ middle _ root _ _ _ ongoing booted underway next found polled ih =>
    have round : RoundCase behaviour root none middle _ :=
      .polls underway nofun next found polled
    exact ih.further ongoing booted round
  | ends _ ongoing booted last ih => exact ih.ends ongoing booted last

/-- Rounds that polled some instances have polled the first of them before. -/
theorem earlier {first later : List InstanceId} (same : ids = first ++ later) :
    ∃ middle, Passage behaviour session first middle := by
  -- The last poll is the last of those asked for, or it is dropped.
  induction passage generalizing later with
  | here =>
    obtain ⟨rfl, rfl⟩ := List.append_eq_nil_iff.mp same.symm
    exact ⟨session, .here⟩
  | polls passage ongoing booted underway next found polled ih =>
    rcases List.eq_nil_or_concat later with rfl | ⟨shorter, last, rfl⟩
    · rw [List.append_nil] at same
      subst same
      exact ⟨_, .polls passage ongoing booted underway next found polled⟩
    · rw [List.concat_eq_append, ← List.append_assoc] at same
      exact ih (List.append_inj' same rfl).1
  | passes _ _ _ _ _ _ ih | ends _ _ _ _ ih => exact ih same

/-- A round that is not the last leads on. -/
theorem round {root : InstanceId} {left rest : Option Nat} {final : Session π β σ}
    (ongoing : after.finished = none) (booted : after.root = some root)
    (next : RoundCase behaviour root left after (.further rest final)) :
    ∃ more, Passage behaviour session (ids ++ more) final ∧
      final.consumedSteps = after.consumedSteps + more.length := by
  cases next with
  | passes underway _ next gone =>
    refine ⟨[], ?_, launch_consumedSteps⟩
    rw [List.append_nil]
    exact passage.passes ongoing booted underway next gone
  | @polls id _ _ underway _ next found polled =>
    refine ⟨[id], passage.polls ongoing booted underway next found polled, ?_⟩
    rw [polled.consumedSteps, launch_consumedSteps]
    rfl

/-- The rounds of a run follow those before it, and each poll in them is counted. -/
theorem runs {root : InstanceId} {left : Option Nat} {result : Except SessionError RunOutcome}
    {final : Session π β σ} (ongoing : after.finished = none) (booted : after.root = some root)
    (runs : Runs behaviour root left after (result, final)) :
    ∃ more, Passage behaviour session (ids ++ more) final ∧
      final.consumedSteps = after.consumedSteps + more.length := by
  -- The last round polls nobody, and every other one at most one instance.
  generalize same : (result, final) = run at runs
  induction runs generalizing ids with
  | ends last =>
    subst same
    refine ⟨[], ?_, ?_⟩
    · rw [List.append_nil]
      exact passage.ends ongoing booted last
    · cases last with
      | inconsistent | exits => rfl
      | pauses | stalls => exact launch_consumedSteps
  | further next _ ih =>
    obtain ⟨polled, passage, counted⟩ := passage.round ongoing booted next
    obtain ⟨more, whole, countedToo⟩ := ih passage (next.frame.1.trans ongoing)
      (next.frame.2.trans booted) same
    refine ⟨polled ++ more, by rwa [← List.append_assoc], ?_⟩
    rw [countedToo, counted, List.length_append, Nat.add_assoc]

/-- What a run does follows what was done before. -/
theorem returns {mode : RunMode} {result : Except SessionError RunOutcome} {final : Session π β σ}
    (returned : Returns behaviour mode after (result, final)) :
    ∃ more, Passage behaviour session (ids ++ more) final ∧
      final.consumedSteps = after.consumedSteps + more.length := by
  -- A session that is over, or that was never begun, is left as it is.
  cases return_case returned with
  | again | unbooted => exact ⟨[], by rwa [List.append_nil], rfl⟩
  | runs ongoing booted runs => exact passage.runs ongoing booted runs

/-- Whoever has exited is not polled any more. -/
theorem exited (reached : Reached behaviour session) {id : InstanceId} {code : Int8}
    (exited : session.tables.instances.exitCode id = some code) :
    after.tables.instances.exitCode id = some code ∧ id ∉ ids := by
  -- Whoever is polled runs, so it is another instance, and the exit code stays.
  induction passage with
  | here => exact ⟨exited, List.not_mem_nil⟩
  | passes _ _ _ _ _ _ ih =>
    refine ⟨?_, ih.2⟩
    show (Session.launch _ _).tables.instances.exitCode id = _
    rw [launch_tables]
    exact ih.1
  | @polls ids middle after _ other task passage ongoing _ _ _ found polled ih =>
    obtain ⟨exited, absent⟩ := ih
    obtain ⟨started, rfl⟩ := task?_eq_some found
    have orderly : (middle.launch behaviour).Orderly :=
      (passage.reached reached).orderly.launch ongoing
    have ongoingToo : (middle.launch behaviour).finished = none := launch_finished.trans ongoing
    have running := orderly.running_of_task ongoingToo started
    have launched : (middle.launch behaviour).tables.instances.exitCode id = some code := by
      rw [launch_tables]
      exact exited
    have undisturbed := orderly.undisturbed ongoingToo started polled
    refine ⟨undisturbed.exitCode orderly.sound running launched, ?_⟩
    have differ : id ≠ task.id := by
      rintro rfl
      exact orderly.sound.indexed.notMem_running launched running
    simp [absent, differ]
  | ends _ _ _ last ih =>
    refine ⟨?_, ih.2⟩
    cases last with
    | inconsistent => exact ih.1
    | exits =>
      rw [finish_instances]
      exact ih.1
    | pauses | stalls =>
      rw [launch_tables]
      exact ih.1

end Passage

/-- The polls since the hand stood at some number, as seen by an instance that is ready all the
time: the hand came to one after another, has passed them, and has not passed that instance. -/
structure InTurn (start : UInt64) (id : InstanceId) (ids : List InstanceId)
    (session : Session π β σ) : Prop where
  sorted : ids.Pairwise fun one other => ahead start one.word < ahead start other.word
  passed : ∀ other ∈ ids, ahead start other.word < ahead start session.hand
  upcoming : ahead start session.hand ≤ ahead start id.word

/-- A poll of another instance is met before the one that is ready. -/
theorem InTurn.polls {start : UInt64} {id next : InstanceId} {ids : List InstanceId}
    (turn : InTurn start id ids session)
    (nearer : ahead session.hand next.word ≤ ahead session.hand id.word) (differ : id ≠ next)
    (moved : after.hand = next.word + 1) : InTurn start id (ids ++ [next]) after := by
  -- The hand comes to the next one before the instance, and then goes one further.
  obtain ⟨onward, before⟩ := ahead_between turn.upcoming nearer
  have apart : ahead start next.word ≠ ahead start id.word := fun same =>
    differ (eq_of_ahead same).symm
  have step : ahead start after.hand = ahead start next.word + 1 := by
    rw [moved]
    exact ahead_succ (Nat.lt_of_le_of_ne before apart)
  refine ⟨List.pairwise_append.mpr ⟨turn.sorted, List.pairwise_singleton _ _, ?_⟩, ?_, ?_⟩
  · intro other polled last same
    obtain rfl := List.mem_singleton.mp same
    exact Nat.lt_of_lt_of_le (turn.passed other polled) onward
  · intro other polled
    rw [step]
    rcases List.mem_append.mp polled with earlier | same
    · have := turn.passed other earlier
      omega
    · obtain rfl := List.mem_singleton.mp same
      omega
  · rw [step]
    omega

/-- As long as an instance that is ready is not polled, it stays ready, and the hand does not pass
it. -/
theorem Passage.inTurn {ids : List InstanceId} (passage : Passage behaviour session ids after)
    (reached : Reached behaviour session) {id : InstanceId}
    (awaits : (session.launch behaviour).Awaits id) (unpolled : id ∉ ids) :
    InTurn session.hand id ids after ∧
      (after.finished = none → (after.launch behaviour).Awaits id) := by
  -- Only a poll moves the hand, and it moves it to somebody who is nearer than the instance.
  induction passage with
  | here =>
    refine ⟨⟨.nil, by simp, ?_⟩, fun _ => awaits⟩
    rw [ahead_self]
    exact Nat.zero_le _
  | @passes ids middle _ _ passage ongoing _ _ _ gone ih =>
    obtain ⟨turn, ready⟩ := ih unpolled
    have same : ∀ other, ((middle.launch behaviour).unwake other).hand = middle.hand :=
      fun other => hand_launch
    refine ⟨⟨turn.sorted, ?_, ?_⟩, fun _ => ((ready ongoing).unwake gone).launch⟩
    · rw [same]
      exact turn.passed
    · rw [same]
      exact turn.upcoming
  | @polls ids middle after _ next task passage ongoing _ _ found there polled ih =>
    rw [List.mem_append, List.mem_singleton, not_or] at unpolled
    obtain ⟨turn, ready⟩ := ih unpolled.1
    obtain ⟨started, rfl⟩ := task?_eq_some there
    have order := passage.reached reached
    have ongoingToo : (middle.launch behaviour).finished = none := launch_finished.trans ongoing
    have nearer := ahead_nextReady_le found (ready ongoing).ready
    rw [hand_launch] at nearer
    refine ⟨turn.polls nearer unpolled.2 polled.hand, fun _ => ?_⟩
    exact ((ready ongoing).polls (order.orderly.launch ongoing) order.waiting.launch ongoingToo
      started polled unpolled.2).launch
  | @ends ids middle after _ _ _ passage ongoing _ last ih =>
    obtain ⟨turn, ready⟩ := ih unpolled
    cases last with
    | inconsistent => exact ⟨turn, ready⟩
    | exits =>
      exact ⟨⟨turn.sorted, turn.passed, turn.upcoming⟩, fun again => by simp [finish] at again⟩
    | pauses | stalls =>
      refine ⟨⟨turn.sorted, ?_, ?_⟩, fun _ => (ready ongoing).launch⟩
      · rw [hand_launch]
        exact turn.passed
      · rw [hand_launch]
        exact turn.upcoming

/-- Instances take turns. From any moment of a run at which an instance is ready or about to be
started, up to its next poll, no other instance is polled twice, whatever happens in between and
over however many runs. The poll just before that moment, in which the instance may have become
ready, counts as one of them. An instance that has exited has no further poll that others could come
before. What a run does in any mode is among the rounds of which this holds, with each of its
polls. -/
theorem polled_in_turn (reached : Reached behaviour session) {ids : List InstanceId}
    (passage : Passage behaviour session ids after) :
    (∀ id ∈ (session.launch behaviour).liveInstances, id ∈ (session.launch behaviour).ready →
      (session.lastPolled.toList.filter (· ≠ id) ++ ids.takeWhile (· ≠ id)).Nodup) ∧
    (∀ id code, session.tables.instances.exitCode id = some code → id ∉ ids) ∧
    ∀ mode result final, Returns behaviour mode after (result, final) → ∃ more,
      Passage behaviour session (ids ++ more) final ∧
        final.consumedSteps = after.consumedSteps + more.length := by
  refine ⟨fun id live ready => ?_, fun id code exited => (passage.exited reached exited).2,
    fun mode result final returned => passage.returns returned⟩
  have unpolled : id ∉ ids.takeWhile (· ≠ id) := fun member => by
    simpa using List.mem_takeWhile_imp member
  obtain ⟨middle, before⟩ := passage.earlier List.takeWhile_append_dropWhile.symm
  obtain ⟨turn, -⟩ := before.inTurn reached ⟨live, ready⟩ unpolled
  refine List.nodup_append.mpr ⟨?_, ?_, ?_⟩
  · exact List.Nodup.sublist List.filter_sublist (by cases session.lastPolled <;> simp)
  · refine turn.sorted.imp fun {one other} nearer same => ?_
    rw [same] at nearer
    exact Nat.lt_irrefl _ nearer
  · -- The instance that acted last is behind all others, and none met so far is.
    intro last acted other polled same
    subst same
    have acted := Option.mem_toList.mp (List.mem_filter.mp acted).1
    have hand : session.hand = last.word + 1 := by
      rw [Session.hand, acted]
    have nearer := Nat.lt_of_lt_of_le (turn.passed last polled) turn.upcoming
    have bound := ahead_lt session.hand id.word
    rw [hand, ahead_behind] at nearer
    rw [hand] at bound
    omega

/-- The first instance creates a child. Both give up control again and again, each time ready to go
on. -/
def alternating : Behaviour Unit (InstanceId × Nat) Unit where
  start _ invocation := (invocation.id, invocation.id.word.toNat)
  next
    | (id, 0), _, _ => (.call (.spawn { index := 0, source := 0 } [] []), (id, 1), ())
    | (id, 1), _, _ => (.wake id, (id, 2), ())
    | (id, _), _, _ => (.park, (id, 1), ())

/-- Behind the first poll of the first instance its child has its turn, and in three more polls the
two alternate. -/
theorem polled_in_turn_of_alternating : ∃ session after,
    Returns alternating (.limitSteps 1) solo (.ok (.paused 1), session) ∧
      Passage alternating session [⟨1⟩, .root, ⟨1⟩] after ∧
      (∀ id ∈ (session.launch alternating).liveInstances,
        id ∈ (session.launch alternating).ready →
        (session.lastPolled.toList.filter (· ≠ id) ++
          [⟨1⟩, .root, ⟨1⟩].takeWhile (· ≠ id)).Nodup) ∧
      (session.launch alternating).liveInstances = [.root, ⟨1⟩] ∧
      (session.launch alternating).ready = [.root, ⟨1⟩] := by
  have paused : Returns alternating (.limitSteps 1) solo (.ok (.paused 1), _) := ⟨9, rfl⟩
  have reached := (reached_solo alternating).returns paused
  have here {session : Session Unit (InstanceId × Nat) Unit}
      (_ : Reached alternating session) : Passage alternating session [] session := .here
  have first := (here reached).polls rfl rfl ⟨rfl, rfl⟩ rfl rfl ⟨9, rfl⟩
  have second := first.polls rfl rfl ⟨rfl, rfl⟩ rfl rfl ⟨9, rfl⟩
  have third := second.polls rfl rfl ⟨rfl, rfl⟩ rfl rfl ⟨9, rfl⟩
  exact ⟨_, _, paused, third, (polled_in_turn reached third).1, rfl, rfl⟩

end Progeny.Session
