import Progeny.Proofs.Session.Lifecycles
import Progeny.Proofs.Session.Moves

/-! The end of a session: whatever was open belonged to somebody who ran, so that nothing is left
open, and nothing happens any more. -/

namespace Progeny

namespace Tables

variable {π : Type} {tables after : Tables π} {caller : InstanceId}

/-- Every open end belongs to a running instance, and no closed end keeps bytes. -/
structure Guarded (tables : Tables π) : Prop where
  owners : ∀ holding ∈ tables.pipes.holdings, holding.isOpen = true →
    holding.owner ∈ tables.instances.running
  drained : tables.pipes.Drained

namespace Guarded

variable (guarded : tables.Guarded)
include guarded

/-- Bytes and exit codes that are exchanged change no owner. -/
theorem exchanges (sound : tables.Sound) (exchanges : Exchanges caller tables after) :
    after.Guarded := by
  obtain ⟨-, instances, holdings, -, -, drained⟩ := exchanges.keeps sound
  exact ⟨by rw [instances, holdings]; exact guarded.owners, drained guarded.drained⟩

/-- A call of a running instance leaves every open end with somebody who runs. -/
theorem call (sound : tables.Sound) (running : caller ∈ tables.instances.running)
    {request : Request} {progress : Progress}
    (outcome : CallCase tables caller request progress after) : after.Guarded := by
  cases outcome with
  | @connects first second next numbers =>
    refine ⟨fun holding there opened => ?_, guarded.drained.extend first second next caller⟩
    replace there : holding ∈ (tables.pipes.extend first second next caller).holdings := there
    rw [PipeRegistry.holdings_extend, List.mem_append] at there
    rcases there with older | new
    · exact guarded.owners holding older opened
    · simp only [Holding.both, List.mem_cons, List.not_mem_nil, or_false] at new
      rcases new with rfl | rfl <;> exact running
  | @spawns _ _ endpoints _ record loaded held found named =>
    refine ⟨fun holding there opened => ?_, guarded.drained.transfer sound.numbered _ _⟩
    replace there : holding ∈
      (tables.pipes.transfer endpoints ⟨tables.instances.nextId⟩).holdings := there
    change holding.owner ∈ (tables.instances.enlist _ _).running
    rw [sound.numbered.holdings_transfer] at there
    obtain ⟨before, member, rfl⟩ := List.mem_map.mp there
    rw [InstanceTable.running_enlist, List.mem_append]
    -- The heir runs, and everybody else keeps what they had.
    simp only [Holding.give]
    split
    · exact .inr (by simp)
    · exact .inl (guarded.owners before member opened)
  | @closes endpoint pipe _ holds =>
    refine ⟨fun holding there opened => ?_, guarded.drained.shut holds.found⟩
    replace there : holding ∈ (tables.pipes.shut endpoint pipe).holdings := there
    rw [sound.numbered.holdings_shut holds] at there
    obtain ⟨before, member, rfl⟩ := List.mem_map.mp there
    exact guarded.owners before member (Bool.and_eq_true_iff.mp opened).1
  | repeats | refused => exact guarded
  | exchanges _ exchanges => exact guarded.exchanges sound exchanges

/-- Whoever exits holds nothing open afterwards. -/
theorem exit (sound : tables.Sound) {id : InstanceId} (running : id ∈ tables.instances.running)
    (result : Except String Int8) : (tables.exit id result).Guarded := by
  rw [exit_eq sound running result]
  refine ⟨fun holding there opened => ?_, guarded.drained.closeAll sound.numbered _⟩
  obtain ⟨before, other⟩ := sound.numbered.of_closeOwnedBy there opened
  change holding.owner ∈ (tables.instances.retire id _ _).running
  rw [InstanceTable.running_retire]
  exact List.mem_filter.mpr ⟨guarded.owners holding before opened, by simpa using other⟩

end Guarded

/-- After some instances were torn down, whatever is open was open before and is none of theirs. -/
theorem Sound.open_of_foldl_teardown (sound : tables.Sound) (ids : List InstanceId) :
    ∀ holding ∈ (ids.foldl teardown tables).pipes.holdings, holding.isOpen = true →
      holding ∈ tables.pipes.holdings ∧ holding.owner ∉ ids := by
  induction ids generalizing tables with
  | nil => exact fun holding there _ => ⟨there, by simp⟩
  | cons id rest ih =>
    intro holding there opened
    have soundToo : (tables.teardown id).Sound := (sound.foldl_teardown [id]).1
    obtain ⟨before, others⟩ := ih soundToo holding there opened
    rw [teardown_eq] at before
    obtain ⟨origin, other⟩ := sound.numbered.of_closeOwnedBy before opened
    exact ⟨origin, by simp [other, others]⟩

/-- After some instances were torn down, whatever is open was open before and is none of theirs, no
closed end keeps bytes, and nothing was reported but closed endpoints. -/
theorem Sound.of_foldl_teardown (sound : tables.Sound) (drained : tables.pipes.Drained)
    (ids : List InstanceId) :
    (∀ holding ∈ (ids.foldl teardown tables).pipes.holdings, holding.isOpen = true →
      holding ∈ tables.pipes.holdings ∧ holding.owner ∉ ids) ∧
    (ids.foldl teardown tables).pipes.Drained ∧
    ∃ closed : List (InstanceId × Endpoint), (ids.foldl teardown tables).journal =
      tables.journal.addAll (closed.map fun (owner, endpoint) => .pipeClosed owner endpoint) := by
  refine ⟨sound.open_of_foldl_teardown ids, ?_⟩
  induction ids generalizing tables with
  | nil => exact ⟨drained, [], rfl⟩
  | cons id rest ih =>
    have torn := tables.teardown_eq id
    have soundToo : (tables.teardown id).Sound := (sound.foldl_teardown [id]).1
    have drainedToo : (tables.teardown id).pipes.Drained := by
      rw [torn]
      exact drained.closeAll sound.numbered _
    obtain ⟨empty, closed, journal⟩ := ih soundToo drainedToo
    rw [List.foldl_cons]
    refine ⟨empty, (tables.pipes.ownedBy id).map (id, ·) ++ closed, ?_⟩
    rw [journal, torn, List.map_append, List.map_map, Journal.addAll_append]
    rfl

end Tables

namespace Session

variable {π β σ : Type} {behaviour : Behaviour π β σ} {deeds : List (Deed π)} {deed : Deed π}
  {session after : Session π β σ}

/-- The session after its end: nobody is left, nothing is open, and nothing is queued. -/
structure Concluded (last : Session π β σ) (outcome : RunOutcome) (after : Session π β σ) :
    Prop where
  finished : after.finished = some outcome
  tasks : after.tasks = []
  launches : after.tables.launches = []
  ready : after.ready = []
  openEndpoints : after.tables.pipes.openEndpoints = 0
  /-- Every end is closed, and its queue is empty. -/
  ends : ∀ pipe ∈ after.tables.pipes.pipes, ∀ side,
    (pipe.on side).isOpen = false ∧ (pipe.on side).inbound = []
  /-- Whoever had not exited still runs by the records, and no other record is changed either. -/
  records : after.tables.instances = last.tables.instances
  /-- Nothing was reported but closed endpoints. -/
  events : ∃ closed : List (InstanceId × Endpoint), after.tables.journal =
    last.tables.journal.addAll (closed.map fun (owner, endpoint) => .pipeClosed owner endpoint)
  root : after.root = last.root
  consumedSteps : after.consumedSteps = last.consumedSteps

/-- A session in which every open end belongs to a running instance leaves nothing open. -/
theorem Orderly.concluded (orderly : session.Orderly) (guarded : session.tables.Guarded)
    (ongoing : session.finished = none) (code : Int8) :
    Concluded session (.exited code session.consumedSteps) (session.finish code).2 := by
  have frame := orderly.sound.foldl_teardown
    (session.liveInstances ++ session.tables.launches.map Launch.id)
  obtain ⟨owners, drained, closed, journal⟩ := orderly.sound.of_foldl_teardown guarded.drained
    (session.liveInstances ++ session.tables.launches.map Launch.id)
  -- Every running instance is torn down, so an open end would belong to nobody.
  have shut : ∀ holding ∈ (session.finish code).2.tables.pipes.holdings,
      holding.isOpen = false := by
    intro holding there
    cases opened : holding.isOpen with
    | false => rfl
    | true =>
      obtain ⟨before, nobody⟩ := owners holding there opened
      refine absurd (guarded.owners holding before opened) ?_
      rwa [← orderly.population ongoing]
  have finished : (session.finish code).2.Orderly := orderly.finish code
  have ends : ∀ pipe ∈ (session.finish code).2.tables.pipes.pipes, ∀ side,
      (pipe.on side).isOpen = false := by
    intro pipe there side
    obtain ⟨position, found⟩ := List.mem_iff_getElem?.mp there
    obtain ⟨index, named⟩ := finished.sound.numbered.ends found side
    refine shut (pipe.on side).holding (finished.sound.numbered.mem_holdings.mpr ⟨pipe, ?_, ?_⟩)
    · exact (congrArg _ index).trans found
    · exact congrArg (fun side => (pipe.on side).holding) named
  exact {
    finished := rfl
    tasks := rfl
    launches := rfl
    ready := rfl
    openEndpoints := finished.sound.counted.eq_zero ends
    ends := fun pipe there side =>
      ⟨ends pipe there side, drained pipe there side (ends pipe there side)⟩
    records := frame.2
    events := ⟨closed, journal⟩
    root := rfl
    consumedSteps := rfl }

/-- Every deed leaves every open end with somebody who runs, as long as calls are made for running
instances only. -/
theorem Step.guarded {polled : Option InstanceId} (steady : Steady polled session)
    (guarded : session.tables.Guarded)
    (step : Step behaviour .confined polled session deed after) : after.tables.Guarded := by
  have sound := steady.orderly.sound
  cases step with
  | boots idle descriptor argv =>
    unfold boot
    rcases Tables.boot_case sound descriptor argv with
      ⟨error, same⟩ | ⟨program, loaded, empty, next, same⟩
    · rw [same]
      exact guarded
    · rw [same]
      refine ⟨fun holding there opened => ?_, guarded.drained⟩
      change holding.owner ∈ (session.tables.instances.enlist none 0).running
      rw [InstanceTable.running_enlist]
      exact List.mem_append_left _ (guarded.owners holding there opened)
  | starts idle ongoing oldest =>
    rw [start_eq]
    exact ⟨guarded.owners, guarded.drained⟩
  | polls | stirs | rests => exact guarded
  | @calls caller request progress tables permitted performed =>
    exact guarded.call sound permitted.2 (.of_perform sound performed)
  | @resumes caller pending progress tables permitted resumed =>
    exact guarded.exchanges sound (.of_resume resumed)
  | @ends id acting result =>
    exact guarded.exit sound (steady.running acting) result
  | finishes idle ongoing booted exited =>
    have frame := sound.foldl_teardown
      (session.liveInstances ++ session.tables.launches.map Launch.id)
    obtain ⟨owners, drained, -⟩ := sound.of_foldl_teardown guarded.drained
      (session.liveInstances ++ session.tables.launches.map Launch.id)
    refine ⟨fun holding there opened => ?_, drained⟩
    change holding.owner ∈ (List.foldl Tables.teardown session.tables _).instances.running
    rw [frame.2]
    exact guarded.owners holding (owners holding there opened).1 opened

/-- In every history every open end belongs to a running instance, as long as calls are made for
running instances only. -/
theorem History.guarded (history : History behaviour .confined deeds session) :
    session.tables.Guarded := by
  refine history.induction (fun _ session => session.tables.Guarded) ?_
    fun steady guarded step => step.guarded steady guarded
  intro config load keepsEvents tables shared valid
  obtain rfl := new_eq valid
  exact ⟨fun holding there => by simp [ofTables, PipeRegistry.holdings] at there,
    fun pipe there => by simp [ofTables] at there⟩

/-- Whether a deed is the beginning of a poll. -/
def Deed.isPoll : Deed π → Bool
  | .polls _ => true
  | _ => false

/-- The number of polls among some deeds. -/
def polls (deeds : List (Deed π)) : Nat :=
  deeds.countP Deed.isPoll

/-- A session counts its polls. -/
theorem History.consumedSteps {discipline : Discipline}
    (history : History behaviour discipline deeds session) :
    session.consumedSteps = polls deeds := by
  refine history.invariant (fun deeds session => session.consumedSteps = polls deeds)
    (fun _ _ => rfl) fun {earlier before next deed} counted step => ?_
  have same : next.consumedSteps = before.consumedSteps + if deed.isPoll then 1 else 0 := by
    cases step with
    | boots idle descriptor argv =>
      unfold boot
      split <;> rfl
    | starts =>
      rw [start_eq]
      rfl
    | polls | calls | resumes | stirs | rests | ends | finishes => rfl
  rw [same, counted, polls, polls, List.countP_append, List.countP_singleton]

/-- Once a session is over, nothing happens in it but that programs change what they share. -/
theorem Course.concluded {past : List (Deed π)} {outcome : RunOutcome}
    (course : Course behaviour .confined past session deeds after) (idle : polling past = none)
    (orderly : session.Orderly) (ended : session.finished = some outcome)
    (held : session.tables.instances.records ≠ []) :
    after = { session with shared := after.shared, woken := after.woken } := by
  suffices frame : polling (past ++ deeds) = none ∧
      after = { session with shared := after.shared, woken := after.woken } from frame.2
  induction course with
  | here => exact ⟨by simpa using idle, rfl⟩
  | @further deeds deed middle after _ step ih =>
    obtain ⟨idleToo, frame⟩ := ih
    have stopped : middle.finished ≠ none := by
      rw [frame]
      simp [ended]
    rw [polling_further]
    rw [idleToo] at step ⊢
    -- A deed of a poll would need a task, and no poll begins any more.
    cases step with
    | boots _ descriptor argv =>
      have same : middle.tables = session.tables := by rw [frame]
      have orderlyToo : middle.Orderly := by
        rw [frame]
        exact ⟨orderly.sound, orderly.population, orderly.emptied⟩
      obtain ⟨error, refused⟩ := orderlyToo.boot_refused (by rw [same]; exact held) descriptor argv
      rw [refused]
      exact ⟨rfl, frame⟩
    | starts _ ongoing | polls _ ongoing | finishes _ ongoing => exact absurd ongoing stopped
    | calls permitted | resumes permitted => exact absurd rfl permitted.1
    | stirs shared woken =>
      refine ⟨rfl, ?_⟩
      rw [frame]
    | rests acting | ends acting => simp at acting

/-- A session ends when a run of it returns the exit of its first instance. Then nobody is left and
nothing is open, and so it remains. -/
theorem session_ends (history : History behaviour .confined deeds session) :
    (∀ holding ∈ session.tables.pipes.holdings, holding.isOpen = true →
      holding.owner ∈ session.tables.instances.running) ∧
    ∀ mode code steps after, polling deeds = none → session.finished = none →
      Returns behaviour mode session (.ok (.exited code steps), after) →
      ∃ more last root result, Course behaviour .confined deeds session more last ∧
        polling (deeds ++ more) = none ∧ last.root = some root ∧
        (root, result) ∈ endings (deeds ++ more) ∧ code = (Tables.ending result).1 ∧
        last.tables.instances.exitCode root = some code ∧ steps = polls (deeds ++ more) ∧
        Concluded last (.exited code steps) after ∧
        (∀ (other : Behaviour π β σ) fuel mode,
          after.run other fuel mode = some (.ok (.exited code steps), after)) ∧
        (∀ descriptor argv, ∃ error, after.boot descriptor argv = (.error error, after)) ∧
        ∀ later final,
          Course behaviour .confined (deeds ++ more ++ [.finishes code]) after later final →
          final = { after with shared := final.shared, woken := final.woken } := by
  refine ⟨history.guarded.owners, fun mode code steps after idle ongoing returned => ?_⟩
  obtain ⟨root, booted⟩ : ∃ root, session.root = some root := by
    cases booted : session.root with
    | some root => exact ⟨root, rfl⟩
    | none =>
      obtain ⟨fuel, done⟩ := returned
      simp [run, ongoing, booted] at done
  have runs := (returns_iff_runs ongoing booted).mp returned
  obtain ⟨more, last, rest, course, idleToo, orderly, ongoingToo, bootedToo, round⟩ :=
    runs.course idle history.steady.orderly ongoing booted
  have whole := history.course course
  cases round with
  | exits sound exited =>
    -- The record of the root tells how its program ended.
    obtain ⟨record, found, state⟩ := Option.bind_eq_some_iff.mp exited
    have own := orderly.sound.indexed.id_of_find? found
    have there := List.mem_of_find?_eq_some found
    have held : last.tables.instances.records ≠ [] := List.ne_nil_of_mem there
    have concluded := orderly.concluded whole.guarded ongoingToo code
    have heldToo : (last.finish code).2.tables.instances.records ≠ [] := by
      rw [concluded.records]
      exact held
    cases whole.accounted.told record there with
    | runs running => simp [running, Lifecycle.exitCode] at state
    | @exited result ended recorded fault =>
      rw [own] at ended
      rw [recorded] at state
      refine ⟨more, last, root, result, course, idleToo, bootedToo, ended,
        (Option.some.inj state).symm, exited, whole.consumedSteps, concluded, fun _ _ _ => rfl,
        (orderly.finish code).boot_refused heldToo, fun later final remains => ?_⟩
      refine remains.concluded ?_ (orderly.finish code) rfl heldToo
      rw [polling_concat]
      exact idleToo

/-- The first instance creates a pipe, hands one end to a child, and exits before the child is
started. -/
def abandoning : Behaviour Unit Nat Unit where
  start _ _ := 0
  next
    | 0, _, _ => (.call .pipe, 1, ())
    | 1, _, .reply (.ok (.endpoints _ second)) =>
      (.call (.spawn { index := 0, source := 0 } [] [second]), 2, ())
    | state, _, _ => (.exit 3, state, ())

/-- Neither end of that pipe is left open. -/
theorem session_ends_of_abandoning :
    ∃ after more last, Returns abandoning .unlimited solo (.ok (.exited 3 1), after) ∧
      Course abandoning .confined [.boots { index := 0, source := 0 } [] (.ok .root)] solo more
        last ∧
      Concluded last (.exited 3 1) after ∧ after.tables.pipes.pipes.length = 1 := by
  have returned : Returns abandoning .unlimited solo (.ok (.exited 3 1), _) := ⟨9, rfl⟩
  obtain ⟨more, last, _, _, course, -, -, -, -, -, -, concluded, -⟩ :=
    (session_ends (history_solo abandoning .confined)).2 _ _ _ _ rfl rfl returned
  exact ⟨_, more, last, returned, course, concluded, rfl⟩

end Session

end Progeny
