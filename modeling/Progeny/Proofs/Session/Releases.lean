import Progeny.Proofs.Pipe.Wakeups
import Progeny.Proofs.Session.Parentage
import Progeny.Proofs.Session.Traffic

/-! What becomes of a call that waits on an endpoint which its own instance gives up meanwhile. To
close the endpoint is signalled, so the call is released at once. To hand it to a child is not: the
call is released, and refused, only by what happens to its queue or to an end of its pipe. -/

namespace Progeny

variable {π : Type}

namespace Pending

variable {endpoint source : Endpoint} {call : Pending}

/-- The queue that a call waits for, told by the endpoint that is read: a read waits for its own
end to be filled, and a write for the end across to be drained. -/
def queue? : Pending → Option Endpoint
  | .read endpoint _ | .readExact endpoint .. | .readToEnd endpoint _ => some endpoint
  | .write endpoint _ | .writeAll endpoint _ => endpoint.peer?
  | .join _ => none

/-- Whoever reads from an endpoint waits for its queue. -/
theorem queue?_of_reads (reading : call.reads = some endpoint) : call.queue? = some endpoint := by
  cases call <;> simp_all [reads, queue?]

/-- Whoever writes to an endpoint waits for the queue across. -/
theorem queue?_of_writes (writing : call.writes = some endpoint) :
    call.queue? = endpoint.peer? := by
  cases call <;> simp_all [writes, queue?]

/-- The endpoint of a call is an end of the pipe of its queue. -/
theorem Uses.end_of_queue (uses : call.Uses endpoint) (queue : call.queue? = some source) :
    source = endpoint ∨ endpoint.peer? = some source := by
  cases call <;> simp_all [Uses, queue?]

end Pending

namespace PipeRegistry

variable {registry after : PipeRegistry} {source : Endpoint} {pipe : Pipe}
  {signals : List Endpoint}

/-- Between two states the queue of an end stays as it is, and both ends of its pipe are as open as
before. -/
def Rests (before after : PipeRegistry) (source : Endpoint) : Prop :=
  ∃ pipe changed, before.pipes[source.index]? = some pipe ∧
    after.pipes[source.index]? = some changed ∧
    (changed.on source.side).inbound = (pipe.on source.side).inbound ∧
    ∀ side, (changed.on side).isOpen = (pipe.on side).isOpen

/-- Where an end is not signalled nothing has happened to its queue or to its pipe. -/
theorem Announced.rests (announced : registry.Announced after signals)
    (numbered : registry.Numbered) (found : registry.pipes[source.index]? = some pipe)
    (silent : source ∉ signals) : registry.Rests after source := by
  -- What is not signalled is not changed, on this side of the pipe or on the other.
  obtain ⟨changed, there, keeps⟩ := announced.kept found
  rw [← numbered.endpoint_of_found found] at silent
  obtain ⟨inbound, own, across⟩ := keeps.quiet source.side silent
  refine ⟨pipe, changed, found, there, inbound, fun side => ?_⟩
  by_cases same : side = source.side
  · rw [same]
    exact own
  · rw [Side.eq_peer_of_ne same]
    exact across

end PipeRegistry

namespace Tables

variable {tables after : Tables π} {caller : InstanceId} {endpoint source : Endpoint}
  {blocked : Blocked}

/-- A call that has just come to wait on an endpoint waits for the next signal on its queue. -/
theorem Stuck.on_queue {call : Pending} {wait : Wait} (stuck : tables.Stuck caller call wait)
    (numbered : tables.pipes.Numbered) (uses : call.Uses endpoint) :
    ∃ source pipe, call.queue? = some source ∧
      wait = .signalOn source (tables.signals.count source) ∧
      tables.pipes.pipes[source.index]? = some pipe := by
  -- A reader waits on its own end, and a writer on the end across.
  cases stuck with
  | joins => exact uses.elim
  | @reads _ used pipe side reading held =>
    obtain ⟨holds, rfl⟩ := numbered.held_iff.mp held
    rw [numbered.endpoint_of_found holds.found]
    exact ⟨used, pipe, Pending.queue?_of_reads reading, rfl, holds.found⟩
  | @writes _ used pipe side writing held =>
    obtain ⟨holds, rfl⟩ := numbered.held_iff.mp held
    have across := numbered.peer?_of_found holds.found
    refine ⟨_, pipe, (Pending.queue?_of_writes writing).trans across, rfl, ?_⟩
    rw [(Endpoint.place_of_peer? across).1]
    exact holds.found

/-- A wait for the next signal on an end is over once some call has signalled it. -/
theorem Relays.isOver_iff {calls : List PipeCall} (relays : tables.Relays calls after) :
    after.isOver (.signalOn source (tables.signals.count source)) = true ↔
      source ∈ tables.pipes.signalled calls := by
  -- The count differs from the one remembered exactly if there was a signal in between.
  rw [isOver, relays.signals, SignalCounts.count_addAll, ← List.count_pos_iff]
  simp only [ne_eq, decide_not, Bool.not_eq_true', decide_eq_false_iff_not]
  omega

/-- Whether a call that waits on an endpoint is refused with it, with nothing changed. -/
def Dismisses (tables : Tables π) (caller : InstanceId) (endpoint : Endpoint) (blocked : Blocked) :
    Prop :=
  tables.retry caller blocked = (.finished (.error (.invalidEndpoint endpoint)), tables)

/-- A call that was released is refused if its instance no longer holds the endpoint. -/
theorem Sound.dismisses (sound : tables.Sound) (uses : blocked.call.Uses endpoint)
    (unheld : ⟨endpoint, caller, true⟩ ∉ tables.pipes.holdings)
    (happened : tables.isOver blocked.wait = true) :
    tables.Dismisses caller endpoint blocked := by
  rw [Dismisses, retry, if_pos happened]
  exact resume_of_unheld sound uses unheld

end Tables

namespace Session

variable {β σ : Type} {behaviour : Behaviour π β σ} {discipline : Discipline}
  {deeds more : List (Deed π)} {deed : Deed π} {session after : Session π β σ}
  {caller : InstanceId} {endpoint source : Endpoint} {blocked : Blocked}

/-- In the course of some deeds something happened to the queue of an end or to an end of its pipe:
bytes were taken from the queue, bytes were put into it from across, or one of the two ends was
closed. -/
def Touched (tables : Tables π) (deeds : List (Deed π)) (source : Endpoint) : Prop :=
  delivered tables source deeds ≠ [] ∨
    (∃ across, across.peer? = some source ∧ accepted tables across deeds ≠ []) ∨
    ∃ closed, tables.pipes.Closes (tablesAfter tables deeds).pipes closed ∧
      (source = closed ∨ closed.peer? = some source)

/-- The calls of some deeds signal exactly the ends that something happened to. -/
theorem touched_iff {tables : Tables π} (numbered : tables.pipes.Numbered) :
    Touched tables deeds source ↔ source ∈ tables.pipes.signalled (traffic tables deeds) := by
  rw [numbered.mem_signalled, ← pipes_tablesAfter]
  rfl

namespace History

variable (history : History behaviour discipline deeds session)
  (course : Course behaviour discipline deeds session more after)
include history course

/-- A wait for the next signal on an end is over once something has happened to its queue or to an
end of its pipe, and not before. -/
theorem isOver_iff :
    after.tables.isOver (.signalOn source (session.tables.signals.count source)) = true ↔
      Touched session.tables more source := by
  rw [touched_iff history.steady.orderly.sound.numbered, history.tables_course course]
  exact (relays_tablesAfter session.tables more).isOver_iff

/-- As long as nothing has happened to an end, its queue and the ends of its pipe are as they
were. -/
theorem rests {pipe : Pipe} (found : session.tables.pipes.pipes[source.index]? = some pipe)
    (untouched : ¬Touched session.tables more source) :
    session.tables.pipes.Rests after.tables.pipes source := by
  have numbered := history.steady.orderly.sound.numbered
  rw [touched_iff numbered] at untouched
  rw [history.tables_course course, pipes_tablesAfter]
  exact (numbered.runs _).2.rests numbered found untouched

end History

/-- Whether an instance comes to wait in a call by a deed: as it makes the call, or as it goes on
with it. -/
def Deed.Suspends (caller : InstanceId) (blocked : Blocked) (deed : Deed π) : Prop :=
  (∃ request, deed = .calls caller request (.blocked blocked)) ∨
    ∃ pending, deed = .resumes caller pending (.blocked blocked)

/-- Whoever has just come to wait in a call is stuck in it. -/
theorem Step.stuck {polled : Option InstanceId}
    (step : Step behaviour discipline polled session deed after)
    (suspends : deed.Suspends caller blocked) :
    after.tables.Stuck caller blocked.call blocked.wait := by
  rcases suspends with ⟨request, rfl⟩ | ⟨pending, rfl⟩
  · cases step with
    | calls _ performed => exact Tables.stuck_of_perform performed
  · cases step with
    | resumes _ resumed => exact Tables.stuck_of_resume resumed

/-- The same where it is the last of some deeds. -/
theorem History.stuck (history : History behaviour discipline (deeds ++ [deed]) session)
    (suspends : deed.Suspends caller blocked) :
    session.tables.Stuck caller blocked.call blocked.wait := by
  -- Nothing happened between the last deed and now.
  obtain ⟨config, load, keepsEvents, tables, shared, valid, course⟩ := history
  obtain ⟨before, -, step⟩ := course.last
  exact step.stuck suspends

/-- An end that was open between two courses of deeds and is closed after them was closed in the
course of both together. -/
theorem History.closes {since : List (Deed π)} {middle : Session π β σ} {owner other : InstanceId}
    (history : History behaviour discipline deeds session)
    (first : Course behaviour discipline deeds session since middle)
    (second : Course behaviour discipline (deeds ++ since) middle more after)
    (opened : ⟨endpoint, owner, true⟩ ∈ middle.tables.pipes.holdings)
    (closed : ⟨endpoint, other, false⟩ ∈ after.tables.pipes.holdings) :
    session.tables.pipes.Closes after.tables.pipes endpoint := by
  have between := history.course first
  refine ⟨fun shut => ?_, ?_⟩
  · -- Had it been closed at first, it would have stayed so.
    obtain ⟨holder, before⟩ := history.steady.orderly.sound.numbered.isShut_iff.mp shut
    have still := history.stays_closed before rfl first
    exact absurd (between.steady.orderly.sound.numbered.holding_unique opened still rfl) (by simp)
  · have numbered := (between.course second).steady.orderly.sound.numbered
    exact numbered.isShut_iff.mpr ⟨other, closed⟩

/-- A child that takes an endpoint is new. -/
theorem Step.child_new {polled : Option InstanceId} (steady : Steady polled session)
    (step : Step behaviour discipline polled session deed after) {parent child : InstanceId}
    (hands : deed.Hands endpoint parent child) :
    child ∉ session.tables.instances.records.map InstanceRecord.id := by
  obtain ⟨descriptor, argv, endpoints, -, rfl⟩ := hands
  have records := step.records steady
  generalize after.tables.instances = later at records
  cases records with
  | keeps unborn => simp [Deed.birth?] at unborn
  | enlists born =>
    simp only [Deed.birth?, Option.some.injEq, Prod.mk.injEq] at born
    rw [born.1]
    exact steady.orderly.sound.indexed.next_notMem

/-- An instance that has a record and does not hold an endpoint, though somebody owns it, never
holds it again. -/
theorem History.stays_lost (history : History behaviour discipline deeds session)
    (recorded : caller ∈ session.tables.instances.records.map InstanceRecord.id)
    (lost : ∃ holding ∈ session.tables.pipes.holdings, holding.endpoint = endpoint ∧
      (holding.owner = caller → holding.isOpen = false))
    (course : Course behaviour discipline deeds session more after) :
    ⟨endpoint, caller, true⟩ ∉ after.tables.pipes.holdings := by
  suffices both : caller ∈ after.tables.instances.records.map InstanceRecord.id ∧
      ∃ holding ∈ after.tables.pipes.holdings, holding.endpoint = endpoint ∧
        (holding.owner = caller → holding.isOpen = false) by
    obtain ⟨holding, there, own, shut⟩ := both.2
    have numbered := (history.course course).steady.orderly.sound.numbered
    intro again
    obtain rfl := numbered.holding_unique there again own
    exact absurd (shut rfl) (by simp)
  -- Endpoints pass to new children only, and the instance is none of these.
  induction course with
  | here => exact ⟨recorded, lost⟩
  | further course step ih =>
    obtain ⟨known, holding, there, own, shut⟩ := ih
    have steady := (history.course course).steady
    refine ⟨(step.records steady).recorded known, ?_⟩
    obtain ⟨later, still, fate⟩ := (step.rearranges steady).fate there
    refine ⟨later, still, fate.endpoint.trans own, fun owner => ?_⟩
    cases fate with
    | remains => exact shut owner
    | passes _ hands =>
      simp only at owner
      exact absurd (owner ▸ known) (step.child_new steady hands)
    | closes => rfl

/-- A call by which an instance gives up an endpoint closes it or hands it to a child. -/
theorem Step.gives_up {polled : Option InstanceId} {request : Request} {progress : Progress}
    (steady : Steady polled session)
    (step : Step behaviour discipline polled session (.calls caller request progress) after)
    (held : ⟨endpoint, caller, true⟩ ∈ session.tables.pipes.holdings)
    (lost : ⟨endpoint, caller, true⟩ ∉ after.tables.pipes.holdings) :
    (request = .close endpoint ∧ progress = .finished (.ok .done) ∧
      ⟨endpoint, caller, false⟩ ∈ after.tables.pipes.holdings) ∨
    ∃ descriptor argv endpoints child, request = .spawn descriptor argv endpoints ∧
      endpoint ∈ endpoints ∧ progress = .finished (.ok (.instance child)) ∧
      ⟨endpoint, child, true⟩ ∈ after.tables.pipes.holdings := by
  obtain ⟨later, still, fate⟩ := (step.rearranges steady).fate held
  cases fate with
  | remains => exact absurd still lost
  | @passes child _ hands =>
    obtain ⟨descriptor, argv, endpoints, listed, same⟩ := hands
    simp only [Deed.calls.injEq, true_and] at same
    exact .inr ⟨descriptor, argv, endpoints, child, same.1, listed, same.2, still⟩
  | closes _ ending =>
    rcases ending with closes | ⟨result, ends⟩ | ⟨code, finishes⟩
    · simp only [Deed.Closes, Deed.calls.injEq, true_and] at closes
      exact .inl ⟨closes.1, closes.2, still⟩
    · simp at ends
    · simp at finishes

/-- A successful spawn finds a record of its caller. It signals nothing and ends no wait. -/
theorem Step.spawns {polled : Option InstanceId} {descriptor : Descriptor} {argv : List Bytes}
    {endpoints : List Endpoint} {child : InstanceId} (steady : Steady polled session)
    (step : Step behaviour discipline polled session
      (.calls caller (.spawn descriptor argv endpoints) (.finished (.ok (.instance child))))
      after) :
    caller ∈ session.tables.instances.records.map InstanceRecord.id ∧
      after.tables.signals = session.tables.signals ∧
      ∀ wait, after.tables.isOver wait = session.tables.isOver wait := by
  -- The endpoints change their owner without a signal, and the new instance has not exited.
  have indexed := steady.orderly.sound.indexed
  cases step with
  | calls _ performed =>
    have outcome := Tables.CallCase.of_perform steady.orderly.sound performed
    cases outcome with
    | spawns _ _ found named =>
      refine ⟨List.mem_map.mpr ⟨_, List.mem_of_find?_eq_some found, indexed.id_of_find? found⟩,
        rfl, fun wait => ?_⟩
      cases wait with
      | exitOf target => exact congrArg Option.isSome (indexed.exitCode_enlist named _ _ target)
      | signalOn => rfl
    | exchanges begins => simp [Request.pending?] at begins

/-- What an instance has given up it never holds again. -/
theorem History.never_regained {request : Request} {progress : Progress} {next : Session π β σ}
    (history : History behaviour discipline deeds session)
    (step : Step behaviour discipline (polling deeds) session (.calls caller request progress) next)
    (held : ⟨endpoint, caller, true⟩ ∈ session.tables.pipes.holdings)
    (lost : ⟨endpoint, caller, true⟩ ∉ next.tables.pipes.holdings)
    (course : Course behaviour discipline (deeds ++ [.calls caller request progress]) next more
      after) : ⟨endpoint, caller, true⟩ ∉ after.tables.pipes.holdings := by
  have steady := history.steady
  have given := history.step step
  -- A closed end stays closed, and one that was handed on passes to new children only.
  rcases step.gives_up steady held lost with
    ⟨rfl, rfl, closed⟩ | ⟨descriptor, argv, endpoints, child, rfl, listed, rfl, passed⟩
  · intro again
    have numbered := (given.course course).steady.orderly.sound.numbered
    have still := given.stays_closed closed rfl course
    exact absurd (numbered.holding_unique still again rfl) (by simp)
  · have recorded := (step.spawns steady).1
    have heir : child ≠ caller := by
      rintro rfl
      exact step.child_new steady ⟨descriptor, argv, endpoints, listed, rfl⟩ recorded
    exact given.stays_lost ((step.records steady).recorded recorded)
      ⟨_, passed, rfl, fun own => absurd own heir⟩ course

/-- Whatever an instance does to give up an endpoint on which a call of its own is suspended, it
closes the endpoint or hands it to a child. If it closes it, the call is released at once. If it
hands it to a child, nobody is released by that, neither this call nor any other. In both cases the
call is released as soon as something has happened to its queue or to an end of its pipe since it
was suspended, and not before. From then on it is refused. Until then it goes on waiting, and its
queue and both ends are as they were. It moves no byte any more. -/
theorem relinquished_released {suspension : Deed π} {since : List (Deed π)}
    {waiting : Session π β σ}
    (history : History behaviour .free (deeds ++ [suspension]) waiting)
    (suspends : suspension.Suspends caller blocked) (uses : blocked.call.Uses endpoint)
    (meanwhile : Course behaviour .free (deeds ++ [suspension]) waiting since session)
    {request : Request} {progress : Progress} {tables : Tables π}
    (performed : session.tables.perform caller request = (progress, tables))
    (held : ⟨endpoint, caller, true⟩ ∈ session.tables.pipes.holdings)
    (lost : ⟨endpoint, caller, true⟩ ∉ tables.pipes.holdings) :
    ∃ source, blocked.call.queue? = some source ∧
      ((request = .close endpoint ∧ progress = .finished (.ok .done)) ∨
        ∃ descriptor argv endpoints child, request = .spawn descriptor argv endpoints ∧
          endpoint ∈ endpoints ∧ progress = .finished (.ok (.instance child)) ∧
          tables.signals = session.tables.signals ∧
          ∀ wait, tables.isOver wait = session.tables.isOver wait) ∧
      ∀ more after, Course behaviour .free
          (deeds ++ [suspension] ++ since ++ [.calls caller request progress])
          { session with tables := tables } more after →
        (request = .close endpoint → after.tables.isOver blocked.wait = true) ∧
        (after.tables.isOver blocked.wait = true ↔
          Touched waiting.tables (since ++ .calls caller request progress :: more) source) ∧
        (after.tables.isOver blocked.wait = true →
          after.tables.Dismisses caller endpoint blocked) ∧
        (after.tables.isOver blocked.wait = false →
          after.tables.retry caller blocked = (.blocked blocked, after.tables) ∧
            waiting.tables.pipes.Rests after.tables.pipes source) := by
  have past := history.course meanwhile
  have steady := past.steady
  have step : Step behaviour .free (polling (deeds ++ [suspension] ++ since)) session
      (.calls caller request progress) { session with tables := tables } :=
    .calls trivial performed
  have gives_up := step.gives_up steady held lost
  -- The call has looked at its queue in vain, so it waits for the next signal there.
  obtain ⟨source, pipe, queue, wait, found⟩ :=
    (history.stuck suspends).on_queue history.steady.orderly.sound.numbered uses
  refine ⟨source, queue, ?_, fun more after course => ?_⟩
  · rcases gives_up with ⟨rfl, rfl, -⟩ | ⟨descriptor, argv, endpoints, child, rfl, listed, rfl, -⟩
    · exact .inl ⟨rfl, rfl⟩
    · obtain ⟨-, signals, waits⟩ := step.spawns steady
      exact .inr ⟨descriptor, argv, endpoints, child, rfl, listed, rfl, signals, waits⟩
  -- All signals since the suspension count, whether they came before the endpoint was given up or
  -- after.
  have whole : Course behaviour .free (deeds ++ [suspension]) waiting
      (since ++ .calls caller request progress :: more) after :=
    meanwhile.trans (step.course.trans course)
  have released : after.tables.isOver blocked.wait = true ↔
      Touched waiting.tables (since ++ .calls caller request progress :: more) source := by
    rw [wait]
    exact history.isOver_iff whole
  refine ⟨?_, released, fun happened => ?_, fun waits => ⟨?_, ?_⟩⟩
  · -- A closed end is a change that the call is told of.
    rintro rfl
    rcases gives_up with ⟨-, rfl, closed⟩ | ⟨_, _, _, _, impossible, -⟩
    · have still := (past.step step).stays_closed closed rfl course
      have closes := history.closes meanwhile (step.course.trans course) held still
      rw [history.tables_course whole] at closes
      exact released.mpr (.inr (.inr ⟨endpoint, closes, uses.end_of_queue queue⟩))
    · simp at impossible
  · have sound := ((past.step step).course course).steady.orderly.sound
    exact sound.dismisses uses (past.never_regained step held lost course) happened
  · rw [Tables.retry, if_neg (by simp [waits])]
  · exact history.rests whole found (fun touched => by simp [released.mpr touched] at waits)

/-- The first instance is started and creates a pipe. -/
def introduced (source : Endpoint) : List (Deed Unit) :=
  [.boots { index := 0, source := 0 } [] (.ok .root), .starts ⟨.root, (), [], []⟩, .polls .root,
    .calls .root .pipe (.finished (.ok (.endpoints .first source)))]

/-- A read from one end of that pipe waits. -/
def attending (source : Endpoint) : Blocked :=
  ⟨.read source 1, .signalOn source 0⟩

/-- The first instance makes that call. -/
def attends (source : Endpoint) : Deed Unit :=
  .calls .root (.read source 1) (.blocked (attending source))

/-- While it waits, it hands that end to a child and writes to the other end, or it closes it. -/
theorem exists_attending : ∃ session,
    History quiet .confined (introduced ⟨2, by decide⟩ ++ [attends ⟨2, by decide⟩]) session ∧
    ⟨⟨2, by decide⟩, .root, true⟩ ∈ session.tables.pipes.holdings ∧
    (∃ given written, session.tables.perform .root (.spawn { index := 0, source := 0 } []
        [⟨2, by decide⟩]) = (.finished (.ok (.instance ⟨1⟩)), given) ∧
      ⟨⟨2, by decide⟩, .root, true⟩ ∉ given.pipes.holdings ∧
      given.isOver (attending ⟨2, by decide⟩).wait = false ∧
      given.perform .root (.write .first [7]) = (.finished (.ok (.count 1)), written) ∧
      written.isOver (attending ⟨2, by decide⟩).wait = true) ∧
    ∃ closed, session.tables.perform .root (.close ⟨2, by decide⟩) =
        (.finished (.ok .done), closed) ∧
      ⟨⟨2, by decide⟩, .root, true⟩ ∉ closed.pipes.holdings := by
  have started := (history_solo quiet .confined).step (.starts rfl rfl rfl)
  have polled := started.step (.polls rfl rfl (.head _))
  have connected : History quiet .confined (introduced ⟨2, by decide⟩) _ :=
    polled.step (.calls ⟨by decide, by decide⟩ (rfl : Tables.perform _ .root .pipe = _))
  have waits : History quiet .confined (introduced ⟨2, by decide⟩ ++ [attends ⟨2, by decide⟩]) _ :=
    connected.step (.calls ⟨by decide, by decide⟩
      (rfl : Tables.perform _ .root (.read ⟨2, by decide⟩ 1) = _))
  exact ⟨_, waits, by decide, ⟨_, _, rfl, by decide, by decide, rfl, by decide⟩, _, rfl,
    by decide⟩

/-- A call is not released as its endpoint is handed to a child: its instance no longer holds the
endpoint, and the call waits on. -/
theorem handed_on_unreleased : ∃ session tables,
    History quiet .confined (introduced ⟨2, by decide⟩ ++ [attends ⟨2, by decide⟩]) session ∧
    session.tables.perform .root (.spawn { index := 0, source := 0 } [] [⟨2, by decide⟩]) =
      (.finished (.ok (.instance ⟨1⟩)), tables) ∧
    ⟨⟨2, by decide⟩, .root, true⟩ ∉ tables.pipes.holdings ∧
    tables.isOver (attending ⟨2, by decide⟩).wait = false ∧
    tables.retry .root (attending ⟨2, by decide⟩) =
      (.blocked (attending ⟨2, by decide⟩), tables) := by
  obtain ⟨session, history, -, ⟨tables, -, performed, lost, waiting, -⟩, -⟩ := exists_attending
  refine ⟨session, tables, history, performed, lost, waiting, ?_⟩
  rw [Tables.retry, if_neg (by simp [waiting])]

/-- The read waits on after such a gift, until a byte is written to the other end, and then it is
refused. After such a close it is refused at once. -/
theorem relinquished_released_of_attending : ∃ session given written closed,
    History quiet .free (introduced ⟨2, by decide⟩ ++ [attends ⟨2, by decide⟩]) session ∧
    session.tables.perform .root (.spawn { index := 0, source := 0 } [] [⟨2, by decide⟩]) =
      (.finished (.ok (.instance ⟨1⟩)), given) ∧
    given.retry .root (attending ⟨2, by decide⟩) = (.blocked (attending ⟨2, by decide⟩), given) ∧
    given.perform .root (.write .first [7]) = (.finished (.ok (.count 1)), written) ∧
    written.Dismisses .root ⟨2, by decide⟩ (attending ⟨2, by decide⟩) ∧
    session.tables.perform .root (.close ⟨2, by decide⟩) = (.finished (.ok .done), closed) ∧
    closed.Dismisses .root ⟨2, by decide⟩ (attending ⟨2, by decide⟩) := by
  obtain ⟨session, confined, held, ⟨given, written, gave, lost, waits, wrote, happened⟩,
    closed, shut, lostToo⟩ := exists_attending
  have history := confined.free
  have suspends : (attends ⟨2, by decide⟩).Suspends .root (attending ⟨2, by decide⟩) :=
    .inl ⟨_, rfl⟩
  refine ⟨session, given, written, closed, history, gave, ?_, wrote, ?_, shut, ?_⟩
  · obtain ⟨source, -, -, later⟩ :=
      relinquished_released history suspends rfl .here gave held lost
    exact ((later [] _ .here).2.2.2 waits).1
  · obtain ⟨source, -, -, later⟩ :=
      relinquished_released history suspends rfl .here gave held lost
    have step (past : List (Deed Unit)) : Step quiet .free (polling past)
        { session with tables := given }
        (.calls .root (.write .first [7]) (.finished (.ok (.count 1))))
        { session with tables := written } := .calls trivial wrote
    exact (later _ _ (step _).course).2.2.1 happened
  · obtain ⟨source, -, -, later⟩ :=
      relinquished_released history suspends rfl .here shut held lostToo
    have closing := later [] _ .here
    exact closing.2.2.1 (closing.1 rfl)

end Session

end Progeny
