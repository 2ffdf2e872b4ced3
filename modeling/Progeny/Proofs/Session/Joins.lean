import Progeny.Proofs.Session.Lifecycles
import Progeny.Proofs.Session.Waiting

/-! Joins are exact: what it comes to to ask for the exit code of an instance depends on nothing but
whether that instance was created and how it ended, and whoever waits for the code is released by
the end itself. -/

namespace Progeny

variable {π β σ : Type}

namespace Session

/-- A deed that asks for an exit code, at first or once more. -/
inductive Deed.Joins (joiner target : InstanceId) (progress : Progress) : Deed π → Prop where
  | calls : Joins joiner target progress (.calls joiner (.join target) progress)
  | resumes : Joins joiner target progress (.resumes joiner (.join target) progress)

/-- The code that is returned for the way in which an instance ended. -/
def codeOf : Except String Int8 → Int8
  | .ok code => code
  | .error _ => -1

/-- That code is recorded. -/
theorem ending_fst (result : Except String Int8) : (Tables.ending result).1 = codeOf result := by
  cases result <;> rfl

/-- What asking for an exit code comes to after some deeds. -/
structure JoinsTo (deeds : List (Deed π)) (joiner target : InstanceId) (progress : Progress) :
    Prop where
  self : progress = .finished (.error (.invalidArgument "an instance cannot join itself")) ↔
    target = joiner
  unknown : progress = .finished (.error (.invalidInstance target)) ↔
    target ≠ joiner ∧ target ∉ (commissions deeds).map Commission.id
  running : target ≠ joiner → target ∈ (commissions deeds).map Commission.id →
    target ∉ (endings deeds).map Prod.fst → progress = .blocked ⟨.join target, .exitOf target⟩
  exited : target ≠ joiner → ∀ result, (target, result) ∈ endings deeds →
    progress = .finished (.ok (.code (codeOf result)))

variable {behaviour : Behaviour π β σ} {discipline : Discipline} {deeds : List (Deed π)}
  {deed : Deed π} {session after : Session π β σ} {joiner target : InstanceId}
  {progress : Progress}

/-- To ask for an exit code, at first or once more, is the same operation on the tables. -/
theorem Step.join {polled : Option InstanceId} (joins : deed.Joins joiner target progress)
    (step : Step behaviour discipline polled session deed after) :
    ∃ tables, session.tables.join joiner target = (progress, tables) ∧
      after = { session with tables := tables } := by
  cases joins with
  | calls =>
    cases step with
    | calls _ performed => exact ⟨_, performed, rfl⟩
  | resumes =>
    cases step with
    | resumes _ resumed => exact ⟨_, resumed, rfl⟩

/-- A target has a record that runs, or it ended, or it was never created. -/
theorem History.record_case (history : History behaviour discipline deeds session)
    (target : InstanceId) :
    session.tables.instances.find? target = none ∧
        target ∉ (commissions deeds).map Commission.id ∨
      ∃ record, session.tables.instances.find? target = some record ∧
        target ∈ (commissions deeds).map Commission.id ∧
        (record.state = .running ∧ target ∉ (endings deeds).map Prod.fst ∨
          ∃ result, (target, result) ∈ endings deeds ∧ record.state = .exited (codeOf result)) := by
  -- Records are looked up by identity, and the account of a history tells the state of each.
  have accounted := history.accounted
  have indexed := history.steady.orderly.sound.indexed
  rw [accounted.created]
  cases found : session.tables.instances.find? target with
  | none =>
    refine .inl ⟨rfl, fun listed => ?_⟩
    obtain ⟨record, there, rfl⟩ := List.mem_map.mp listed
    simp [indexed.find?_of_mem there] at found
  | some record =>
    have there := List.mem_of_find?_eq_some found
    obtain rfl := indexed.id_of_find? found
    refine .inr ⟨record, rfl, List.mem_map_of_mem there, ?_⟩
    cases accounted.told record there with
    | runs state _ unended => exact .inl ⟨state, unended⟩
    | exited ended state => exact .inr ⟨_, ended, by rw [state, ending_fst]⟩

/-- Every attempt at a join comes to what its target did so far. -/
theorem History.joinsTo (history : History behaviour discipline deeds session)
    (joins : deed.Joins joiner target progress)
    (step : Step behaviour discipline (polling deeds) session deed after) :
    JoinsTo deeds joiner target progress := by
  obtain ⟨tables, joined, -⟩ := step.join joins
  have once := history.accounted.endedOnce
  unfold Tables.join at joined
  split at joined
  · rename_i self
    obtain ⟨rfl, -⟩ := Prod.mk.inj joined
    exact ⟨by simp [self], by simp [self, CallError.invalidInstance],
      fun other => absurd self other, fun other => absurd self other⟩
  · rename_i other
    rcases history.record_case target with ⟨missing, unasked⟩ | ⟨record, found, asked, told⟩
    · simp only [missing, Prod.mk.injEq] at joined
      obtain ⟨rfl, -⟩ := joined
      refine ⟨by simp [other, CallError.invalidInstance], by simp [other, unasked],
        fun _ asked => absurd asked unasked, fun _ result ended => ?_⟩
      -- Whoever ended was created.
      rw [history.accounted.created] at unasked
      exact absurd (history.accounted.recorded (List.mem_map_of_mem ended)) unasked
    · rcases told with ⟨state, unended⟩ | ⟨result, ended, state⟩
      · simp only [found, state, Prod.mk.injEq] at joined
        obtain ⟨rfl, -⟩ := joined
        exact ⟨by simp [other], by simp [asked], fun _ _ _ => rfl,
          fun _ result ended => absurd (List.mem_map_of_mem ended) unended⟩
      · simp only [found, state, Prod.mk.injEq] at joined
        obtain ⟨rfl, -⟩ := joined
        refine ⟨by simp [other], by simp [asked],
          fun _ _ unended => absurd (List.mem_map_of_mem ended) unended,
          fun _ another endedToo => ?_⟩
        have same := List.inj_on_of_nodup_map once ended endedToo rfl
        rw [(Prod.mk.inj same).2]

namespace JoinsTo

variable (joinsTo : JoinsTo deeds joiner target progress)
include joinsTo

/-- A join comes to one of four things. -/
theorem outcomes :
    progress = .finished (.error (.invalidArgument "an instance cannot join itself")) ∨
      progress = .finished (.error (.invalidInstance target)) ∨
      (target ≠ joiner ∧ target ∈ (commissions deeds).map Commission.id ∧
        progress = .blocked ⟨.join target, .exitOf target⟩) ∨
      ∃ result, (target, result) ∈ endings deeds ∧
        progress = .finished (.ok (.code (codeOf result))) := by
  -- The target is the joiner, or unknown, or it ended, or it is none of these and so still runs.
  by_cases self : target = joiner
  · exact .inl (joinsTo.self.mpr self)
  by_cases asked : target ∈ (commissions deeds).map Commission.id
  · by_cases ended : target ∈ (endings deeds).map Prod.fst
    · obtain ⟨⟨_, result⟩, member, rfl⟩ := List.mem_map.mp ended
      exact .inr (.inr (.inr ⟨result, member, joinsTo.exited self result member⟩))
    · exact .inr (.inr (.inl ⟨self, asked, joinsTo.running self asked ended⟩))
  · exact .inr (.inl (joinsTo.unknown.mpr ⟨self, asked⟩))

/-- A join fails for no other reason than these two. -/
theorem fails {error : CallError} (failed : progress = .finished (.error error)) :
    error = .invalidArgument "an instance cannot join itself" ∨
      error = .invalidInstance target := by
  rcases joinsTo.outcomes with same | same | ⟨-, -, same⟩ | ⟨_, -, same⟩
  · exact .inl (Except.error.inj (Progress.finished.inj (failed.symm.trans same)))
  · exact .inr (Except.error.inj (Progress.finished.inj (failed.symm.trans same)))
  · simp [same] at failed
  · simp [same] at failed

/-- What a join returns is the code of its target, which has ended. -/
theorem returns {value : Value} (returned : progress = .finished (.ok value)) :
    ∃ result, (target, result) ∈ endings deeds ∧ value = .code (codeOf result) := by
  rcases joinsTo.outcomes with same | same | ⟨-, -, same⟩ | ⟨result, ended, same⟩
  · simp [same] at returned
  · simp [same] at returned
  · simp [same] at returned
  · exact ⟨result, ended, Except.ok.inj (Progress.finished.inj (returned.symm.trans same))⟩

/-- A join that waits is one of another instance, which was created. -/
theorem blocks {blocked : Blocked} (waits : progress = .blocked blocked) :
    target ≠ joiner ∧ target ∈ (commissions deeds).map Commission.id ∧
      blocked = ⟨.join target, .exitOf target⟩ := by
  rcases joinsTo.outcomes with same | same | ⟨other, asked, same⟩ | ⟨_, -, same⟩
  · simp [same] at waits
  · simp [same] at waits
  · exact ⟨other, asked, Progress.blocked.inj (waits.symm.trans same)⟩
  · simp [same] at waits

end JoinsTo

/-- Whoever was created was created before anything that came later. -/
theorem commissions_append {id : InstanceId} {earlier : List (Deed π)}
    (asked : id ∈ (commissions earlier).map Commission.id) (later : List (Deed π)) :
    id ∈ (commissions (earlier ++ later)).map Commission.id := by
  simp only [commissions, List.filterMap_append, List.map_append, List.mem_append]
  exact .inl asked

/-- As a whole a join fails for what its target was before the call, and it waits only for another
instance that was created by then. -/
theorem History.join_call {earlier during : List (Deed π)}
    (history : History behaviour discipline (earlier ++ during) session)
    (span : CallSpan joiner (.join target) during progress) :
    (progress = .finished (.error (.invalidArgument "an instance cannot join itself")) ↔
        target = joiner) ∧
      (progress = .finished (.error (.invalidInstance target)) ↔
        target ≠ joiner ∧ target ∉ (commissions earlier).map Commission.id) ∧
      (∀ error, progress = .finished (.error error) →
        error = .invalidArgument "an instance cannot join itself" ∨
          error = .invalidInstance target) ∧
      ∀ blocked, progress = .blocked blocked → target ≠ joiner ∧
        target ∈ (commissions earlier).map Commission.id ∧ blocked.call = .join target := by
  -- What others do in the meantime changes nothing; only a new attempt has to be looked at.
  induction span generalizing session with
  | begins progress =>
    obtain ⟨before, next, past, step⟩ := history.split
    have joinsTo := past.joinsTo .calls step
    refine ⟨joinsTo.self, joinsTo.unknown, fun error => joinsTo.fails, fun blocked waits => ?_⟩
    obtain ⟨other, asked, rfl⟩ := joinsTo.blocks waits
    exact ⟨other, asked, rfl⟩
  | @others deeds blocked deed span _ ih =>
    rw [← List.append_assoc] at history
    obtain ⟨before, next, past, -⟩ := history.split
    exact ih past
  | @again deeds blocked span progress ih =>
    rw [← List.append_assoc] at history
    obtain ⟨before, next, past, step⟩ := history.split
    obtain ⟨-, -, -, waits⟩ := ih past
    obtain ⟨other, asked, call⟩ := waits blocked rfl
    rw [call] at step
    have joinsTo := past.joinsTo .resumes step
    have still := commissions_append asked deeds
    refine ⟨joinsTo.self, ?_, fun error => joinsTo.fails, fun blocked waits => ?_⟩
    · rw [joinsTo.unknown]
      exact ⟨fun unknown => absurd still unknown.2, fun unknown => absurd asked unknown.2⟩
    · obtain ⟨-, -, rfl⟩ := joinsTo.blocks waits
      exact ⟨other, asked, rfl⟩

/-- Joins are exact, whatever else is done in a session. -/
structure JoinsExactly (behaviour : Behaviour π β σ) (deeds : List (Deed π))
    (session : Session π β σ) : Prop where
  /-- Every attempt comes to what the target did before it. -/
  attempts : ∀ earlier deed later, deeds = earlier ++ deed :: later →
    ∀ joiner target progress, deed.Joins joiner target progress →
      JoinsTo earlier joiner target progress
  /-- A call fails for what its target was before the call, and for no other reason. -/
  calls : ∀ earlier during later, deeds = earlier ++ during ++ later →
    ∀ joiner target progress, CallSpan joiner (.join target) during progress →
    (progress = .finished (.error (.invalidArgument "an instance cannot join itself")) ↔
      target = joiner) ∧
    (progress = .finished (.error (.invalidInstance target)) ↔
      target ≠ joiner ∧ target ∉ (commissions earlier).map Commission.id) ∧
    ∀ error, progress = .finished (.error error) →
      error = .invalidArgument "an instance cannot join itself" ∨ error = .invalidInstance target
  /-- All joins of one target return the same, whoever makes them and whenever. -/
  agree : ∀ one ∈ deeds, ∀ other ∈ deeds, ∀ joiner joinerToo target value valueToo,
    one.Joins joiner target (.finished (.ok value)) →
    other.Joins joinerToo target (.finished (.ok valueToo)) → value = valueToo
  /-- A join is reported, and nothing else is changed by it. -/
  harmless : ∀ deed after joiner target progress, deed.Joins joiner target progress →
    Step behaviour .free (polling deeds) session deed after →
    ∃ journal, after = { session with tables := { session.tables with journal := journal } }

/-- Whoever waits for the end of an instance is released by it. -/
structure JoinersReleased (behaviour : Behaviour π β σ) (session : Session π β σ) : Prop where
  /-- A joiner waits for the end of another instance, which was created. -/
  waits : ∀ task ∈ session.tasks, ∀ target wait, task.blocked = some ⟨.join target, wait⟩ →
    wait = .exitOf target ∧ target ≠ task.id ∧
      target ∈ session.tables.instances.records.map InstanceRecord.id
  /-- As long as that instance runs the joiner is not released, and a poll leaves it in its call and
  everything else as it was. -/
  running : ∀ task ∈ session.tasks, ∀ target wait, task.blocked = some ⟨.join target, wait⟩ →
    target ∈ session.tables.instances.running → session.isReleased task = false ∧
      ∀ result, Proceeds behaviour task (session.counted task.id) result ↔
        result = (.suspended task.state task.blocked, session.counted task.id)
  /-- Once that instance has exited the joiner is ready, and in its next poll it goes on with the
  code. -/
  exited : ∀ task ∈ session.tasks, ∀ target wait, task.blocked = some ⟨.join target, wait⟩ →
    ∀ code, session.tables.instances.exitCode target = some code → task.id ∈ session.ready ∧
      ∀ result, Proceeds behaviour task (session.counted task.id) result ↔
        Acts behaviour task.id task.state (.reply (.ok (.code code)))
          { session.counted task.id with
            tables := session.tables.report (.joined task.id target code) } result
  /-- The poll in which an instance ends records its code and makes all its joiners ready. -/
  ends : ∀ leaver ∈ session.tasks, ∀ result middle,
    Proceeds behaviour leaver (session.counted leaver.id) (.ended result, middle) →
    let after := middle.settle leaver.id (.ended result)
    after.tables.instances.exitCode leaver.id = some (codeOf result) ∧
      ∀ task ∈ session.tasks, ∀ wait, task.blocked = some ⟨.join leaver.id, wait⟩ →
        task ∈ after.tasks ∧ task.id ∈ after.ready

/-- What a history says of joins. -/
theorem History.joinsExactly (history : History behaviour .free deeds session) :
    JoinsExactly behaviour deeds session where
  attempts earlier deed later same joiner target progress joins := by
    subst same
    obtain ⟨before, next, past, step⟩ := history.split
    exact past.joinsTo joins step
  calls earlier during later same joiner target progress span := by
    subst same
    obtain ⟨before, past⟩ := history.before
    obtain ⟨self, unknown, fails, -⟩ := past.join_call span
    exact ⟨self, unknown, fails⟩
  agree one member other memberToo joiner joinerToo target value valueToo joins joinsToo := by
    -- Both tell of the one way in which the target ended.
    have ended {deed : Deed π} {joiner : InstanceId} {value : Value} (member : deed ∈ deeds)
        (joins : deed.Joins joiner target (.finished (.ok value))) :
        ∃ result, (target, result) ∈ endings deeds ∧ value = .code (codeOf result) := by
      obtain ⟨earlier, later, rfl⟩ := List.append_of_mem member
      obtain ⟨before, next, past, step⟩ := history.split
      obtain ⟨result, ended, same⟩ := (past.joinsTo joins step).returns rfl
      refine ⟨result, ?_, same⟩
      simp only [endings, List.filterMap_append, List.mem_append]
      exact .inl ended
    obtain ⟨result, there, rfl⟩ := ended member joins
    obtain ⟨resultToo, thereToo, rfl⟩ := ended memberToo joinsToo
    have same := List.inj_on_of_nodup_map history.accounted.endedOnce there thereToo rfl
    rw [(Prod.mk.inj same).2]
  harmless deed after joiner target progress joins step := by
    obtain ⟨tables, joined, rfl⟩ := step.join joins
    unfold Tables.join at joined
    split at joined
    · obtain ⟨-, rfl⟩ := Prod.mk.inj joined
      exact ⟨_, rfl⟩
    split at joined
    · obtain ⟨-, rfl⟩ := Prod.mk.inj joined
      exact ⟨_, rfl⟩
    split at joined
    · obtain ⟨-, rfl⟩ := Prod.mk.inj joined
      exact ⟨_, rfl⟩
    · obtain ⟨-, rfl⟩ := Prod.mk.inj joined
      exact ⟨_, rfl⟩

/-- A joiner waits for the end of another instance, which has a record. -/
theorem Reached.awaited (reached : Reached behaviour session) {task : Task β}
    (started : task ∈ session.tasks) {wait : Wait}
    (waits : task.blocked = some ⟨.join target, wait⟩) :
    wait = .exitOf target ∧ target ≠ task.id ∧
      ∃ record, session.tables.instances.find? target = some record := by
  -- A join is neither a read nor a write, so it waits for no signal.
  generalize same : (⟨.join target, wait⟩ : Blocked) = blocked at waits
  cases reached.waiting task started blocked waits with
  | joins other found =>
    obtain ⟨call, rfl⟩ := Blocked.mk.inj same
    obtain rfl := Pending.join.inj call
    exact ⟨rfl, other, _, found⟩
  | reads reading =>
    obtain ⟨rfl, -⟩ := Blocked.mk.inj same
    simp [Pending.reads] at reading
  | writes writing =>
    obtain ⟨rfl, -⟩ := Blocked.mk.inj same
    simp [Pending.writes] at writing

/-- The poll in which an instance ends records its code. -/
theorem Reached.code_recorded (reached : Reached behaviour session) {leaver : Task β}
    (started : leaver ∈ session.tasks) {result : Except String Int8} {middle : Session π β σ}
    (goes : Proceeds behaviour leaver (session.counted leaver.id) (.ended result, middle)) :
    (middle.settle leaver.id (.ended result)).tables.instances.exitCode leaver.id =
      some (codeOf result) := by
  have orderly := reached.orderly
  have ongoing : session.finished = none := by
    by_contra ended
    simp [orderly.emptied ended] at started
  -- Its calls leave it running, and then its record is retired with its code.
  obtain ⟨sound, -, new, -, more⟩ := goes.effects.sound orderly.sound
  have running : leaver.id ∈ middle.tables.instances.running := by
    rw [more]
    exact List.mem_append_left _ (orderly.running_of_task ongoing started)
  obtain ⟨record, found, -⟩ := sound.indexed.mem_running.mp running
  show (middle.tables.exit leaver.id result).instances.exitCode leaver.id = _
  rw [Tables.exit_eq sound running]
  simp [InstanceTable.exitCode, sound.indexed.find?_retire, found, Lifecycle.exitCode, ending_fst]

/-- Wherever a session comes, its joiners are released by the ends they wait for. -/
theorem Reached.joinersReleased (reached : Reached behaviour session) :
    JoinersReleased behaviour session where
  waits task started target wait waits := by
    obtain ⟨same, other, record, found⟩ := reached.awaited started waits
    have indexed := reached.orderly.sound.indexed
    refine ⟨same, other, List.mem_map.mpr ⟨record, List.mem_of_find?_eq_some found, ?_⟩⟩
    exact indexed.id_of_find? found
  running task started target wait waits running := by
    obtain ⟨rfl, -⟩ := reached.awaited started waits
    have still : session.tables.isOver (.exitOf target) = false := by
      cases exited : session.tables.instances.exitCode target with
      | none => simp [Tables.isOver, exited]
      | some code =>
        exact absurd running (reached.orderly.sound.indexed.notMem_running exited)
    refine ⟨by simp [isReleased, waits, still], fun result => ?_⟩
    rw [waits]
    exact proceeds_of_waiting waits still
  exited task started target wait waits code exited := by
    obtain ⟨rfl, other, record, found⟩ := reached.awaited started waits
    have happened : session.tables.isOver (.exitOf target) = true := by simp [Tables.isOver, exited]
    have released : session.isReleased task = true := by simp [isReleased, waits, happened]
    have joined : session.tables.join task.id target =
        (.finished (.ok (.code code)), session.tables.report (.joined task.id target code)) := by
      cases state : record.state <;>
        simp_all [Tables.join, InstanceTable.exitCode, Lifecycle.exitCode]
    refine ⟨mem_ready.mpr (.inr ⟨task, started, rfl, released⟩), fun result => ?_⟩
    refine proceeds_of_answer waits ?_
    show session.tables.retry task.id _ = _
    rw [Tables.retry, if_pos happened]
    exact joined
  ends leaver started result middle goes := by
    -- Joiners keep their tasks while another is polled, and find the code as soon as it ends.
    have exited := reached.code_recorded started goes
    refine ⟨exited, fun task startedToo wait waits => ?_⟩
    obtain ⟨rfl, other, -⟩ := reached.awaited startedToo waits
    have frame := goes.frame
    dsimp only at frame
    have kept : task ∈ (middle.settle leaver.id (.ended result)).tasks :=
      mem_tasks_settle_of_ne (by rw [frame]; exact startedToo) (Ne.symm other) _
    refine ⟨kept, mem_ready.mpr (.inr ⟨task, kept, rfl, ?_⟩)⟩
    have happened : (middle.settle leaver.id (.ended result)).tables.isOver
        (.exitOf leaver.id) = true := by
      simp [Tables.isOver, exited]
    simp only [isReleased, waits]
    exact happened

/-- Joins are exact in every session, whatever its programs do. -/
theorem join_exact (behaviour : Behaviour π β σ) :
    (∀ deeds session, History behaviour .free deeds session →
      JoinsExactly behaviour deeds session) ∧
    ∀ session, Reached behaviour session → JoinersReleased behaviour session ∧
      ∃ deeds, History behaviour .free deeds session ∧ Reflects deeds session := by
  refine ⟨fun deeds session history => history.joinsExactly, fun session reached => ?_⟩
  obtain ⟨deeds, history, -, reflects⟩ := reached.history
  exact ⟨reached.joinersReleased, deeds, history.free, reflects⟩

/-- The first instance creates a child, asks for its exit code, and exits with that code. The child
faults. -/
def expecting : Behaviour Unit Nat Unit where
  start _ invocation := invocation.id.word.toNat
  next
    | 0, _, .go => (.call (.spawn { index := 0, source := 0 } [] []), 0, ())
    | 0, _, .reply (.ok (.instance child)) => (.call (.join child), 0, ())
    | 0, _, .reply (.ok (.code code)) => (.exit code, 0, ())
    | state, _, _ => (.fault "lost", state, ())

/-- After its first poll the first instance waits, and once the child has faulted it is ready to
learn the code of a fault. -/
theorem join_exact_of_expecting : ∃ waits ends deeds,
    Returns expecting (.limitSteps 1) solo (.ok (.paused 1), waits) ∧
      waits.isReleased ⟨.root, 0, some ⟨.join ⟨1⟩, .exitOf ⟨1⟩⟩⟩ = false ∧
      Returns expecting (.limitSteps 2) solo (.ok (.paused 2), ends) ∧
      ends.tables.instances.exitCode ⟨1⟩ = some (-1) ∧ .root ∈ ends.ready ∧
      History expecting .free deeds ends ∧ JoinsExactly expecting deeds ends := by
  have paused : Returns expecting (.limitSteps 1) solo (.ok (.paused 1), _) := ⟨9, rfl⟩
  have further : Returns expecting (.limitSteps 2) solo (.ok (.paused 2), _) := ⟨9, rfl⟩
  have reached := (reached_solo expecting).returns paused
  have reachedToo := (reached_solo expecting).returns further
  obtain ⟨exact, released⟩ := join_exact expecting
  have waiting := ((released _ reached).1.running _ (.head _) ⟨1⟩ _ rfl (by decide)).1
  obtain ⟨awaited, deeds, history, -⟩ := released _ reachedToo
  have ready := (awaited.exited _ (.head _) ⟨1⟩ _ rfl (-1) rfl).1
  exact ⟨_, _, deeds, paused, waiting, further, rfl, ready, history, exact _ _ history⟩

end Session

end Progeny
