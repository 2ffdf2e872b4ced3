import Progeny.Proofs.Session.History
import Progeny.Proofs.Session.Replies

/-! Whatever changes a record or an end is one of a few moves, and every move is reported as it is
made. -/

namespace Progeny

/-- The records, and the ends without their queues. -/
structure Register where
  instances : InstanceTable
  holdings : List Holding

namespace Register

/-- Records are numbered, and no two ends have the same endpoint. -/
structure Valid (register : Register) : Prop where
  indexed : register.instances.Indexed
  distinct : (register.holdings.map Holding.endpoint).Nodup

/-- A single change of a record or an end, with what is reported of it. -/
inductive Move (register : Register) : Event → Register → Prop where
  | spawns {parent : Option InstanceId} {depth : UInt32} {endpoints : List Endpoint}
      (named : register.instances.nextId + 1 ≠ 0)
      (held : ∀ endpoint ∈ endpoints, ∃ owner, parent = some owner ∧
        ⟨endpoint, owner, true⟩ ∈ register.holdings) :
    Move register (.spawned ⟨register.instances.nextId⟩ parent endpoints)
      ⟨register.instances.enlist parent depth,
        register.holdings.map (Holding.give endpoints ⟨register.instances.nextId⟩)⟩
  | exits {id : InstanceId} {code : Int8} {fault : Option String}
      (running : id ∈ register.instances.running) :
    Move register (.exited id code fault)
      ⟨register.instances.retire id code fault, register.holdings⟩
  | joins {id target : InstanceId} {code : Int8}
      (exited : register.instances.exitCode target = some code) :
    Move register (.joined id target code) register
  | connects {owner : InstanceId} {first second : Endpoint}
      (fresh : ((register.holdings ++ Holding.both owner first second).map
        Holding.endpoint).Nodup) :
    Move register (.pipeCreated owner first second)
      ⟨register.instances, register.holdings ++ Holding.both owner first second⟩
  | closes {owner : InstanceId} {endpoint : Endpoint}
      (held : ⟨endpoint, owner, true⟩ ∈ register.holdings) :
    Move register (.pipeClosed owner endpoint)
      ⟨register.instances, register.holdings.map (Holding.shut [endpoint])⟩

/-- Some moves, one after another, with all that is reported of them. -/
inductive Moves (register : Register) : List Event → Register → Prop where
  | here : Moves register [] register
  | further {events : List Event} {event : Event} {middle after : Register}
      (moves : Moves register events middle) (move : Move middle event after) :
    Moves register (events ++ [event]) after

variable {register middle after : Register} {event : Event} {events more : List Event}

/-- A single move. -/
theorem Move.moves (move : Move register event after) : Moves register [event] after := by
  have moves : Moves register ([] ++ [event]) after := .further .here move
  exact moves

/-- Some moves after others. -/
theorem Moves.trans (first : Moves register events middle) (second : Moves middle more after) :
    Moves register (events ++ more) after := by
  -- The later moves are added one by one.
  induction second with
  | here => simpa using first
  | further _ move ih =>
    rw [← List.append_assoc]
    exact ih.further move

/-- A move keeps the numbering of records and adds no endpoint twice. -/
theorem Move.valid (valid : register.Valid) (move : Move register event after) : after.Valid := by
  -- Owners and states are no part of the numbering.
  cases move with
  | spawns named held =>
    refine ⟨valid.indexed.enlist named _ _, ?_⟩
    simpa [Function.comp_def] using valid.distinct
  | exits running => exact ⟨valid.indexed.retire _ _ _, valid.distinct⟩
  | joins exited => exact valid
  | connects fresh => exact ⟨valid.indexed, fresh⟩
  | closes held =>
    refine ⟨valid.indexed, ?_⟩
    simpa [Function.comp_def] using valid.distinct

/-- No move changes the parent of an instance, or removes its record. -/
theorem Move.parent (valid : register.Valid) (move : Move register event after)
    {id : InstanceId} {record : InstanceRecord}
    (found : register.instances.find? id = some record) :
    ∃ later, after.instances.find? id = some later ∧ later.parent = record.parent := by
  cases move with
  | spawns named held =>
    exact ⟨record, valid.indexed.find?_enlist_of_some named _ _ found, rfl⟩
  | exits running =>
    rw [valid.indexed.find?_retire, found]
    refine ⟨_, rfl, ?_⟩
    split <;> rfl
  | joins | connects | closes => exact ⟨record, found, rfl⟩

/-- What one move after another does not change stays as it is. -/
theorem Moves.parent (valid : register.Valid) (moves : Moves register events after)
    {id : InstanceId} {record : InstanceRecord}
    (found : register.instances.find? id = some record) :
    after.Valid ∧ ∃ later, after.instances.find? id = some later ∧
      later.parent = record.parent := by
  induction moves with
  | here => exact ⟨valid, record, found, rfl⟩
  | further _ move ih =>
    obtain ⟨validToo, middle, there, same⟩ := ih
    obtain ⟨later, still, sameToo⟩ := move.parent validToo there
    exact ⟨move.valid validToo, later, still, sameToo.trans same⟩

/-- Open ends of an owner may be closed one after another. -/
theorem moves_close (instances : InstanceTable) {holdings : List Holding} {owner : InstanceId}
    {endpoints : List Endpoint} (once : endpoints.Nodup)
    (held : ∀ endpoint ∈ endpoints, ⟨endpoint, owner, true⟩ ∈ holdings) :
    Moves ⟨instances, holdings⟩ (endpoints.map (.pipeClosed owner))
      ⟨instances, holdings.map (Holding.shut endpoints)⟩ := by
  induction endpoints generalizing holdings with
  | nil =>
    rw [Holding.shut_nil, List.map_id]
    exact .here
  | cons endpoint rest ih =>
    obtain ⟨apart, once⟩ := List.nodup_cons.mp once
    have first : Move ⟨instances, holdings⟩ (.pipeClosed owner endpoint)
        ⟨instances, holdings.map (Holding.shut [endpoint])⟩ := .closes (held endpoint (by simp))
    -- The rest are other endpoints, so they are still open.
    have others : ∀ other ∈ rest,
        ⟨other, owner, true⟩ ∈ holdings.map (Holding.shut [endpoint]) := by
      intro other listed
      refine List.mem_map.mpr ⟨_, held other (by simp [listed]), ?_⟩
      have differ : other ≠ endpoint := fun same => apart (same ▸ listed)
      simp [Holding.shut, differ]
    have further := ih once others
    rw [List.map_map] at further
    have shut : Holding.shut rest ∘ Holding.shut [endpoint] = Holding.shut (endpoint :: rest) :=
      funext fun holding => holding.shut_append [endpoint] rest
    rw [shut] at further
    exact first.moves.trans further

end Register

namespace Tables

variable {π : Type} {tables middle after : Tables π} {caller : InstanceId}

/-- The records and the ends of the tables. -/
def register (tables : Tables π) : Register :=
  ⟨tables.instances, tables.pipes.holdings⟩

/-- Sound tables have valid records and ends. -/
theorem Sound.register (sound : tables.Sound) : tables.register.Valid :=
  ⟨sound.indexed, sound.numbered.nodup_endpoints⟩

/-- Whatever changed between two states of the tables was reported as it was done. -/
def Reported (before after : Tables π) : Prop :=
  ∃ events, before.register.Moves events after.register ∧
    after.journal = before.journal.addAll events

namespace Reported

/-- Where no record and no end changes there is nothing to report. -/
theorem of_same (register : after.register = tables.register)
    (journal : after.journal = tables.journal) : tables.Reported after :=
  ⟨[], register ▸ .here, journal⟩

/-- A single move with its report. -/
theorem of_move {event : Event} {register : Register} (move : tables.register.Move event register)
    (same : after.register = register) (journal : after.journal = tables.journal.add event) :
    tables.Reported after :=
  ⟨[event], same ▸ move.moves, journal⟩

/-- Two changes that are reported are reported in a row. -/
theorem trans (first : tables.Reported middle) (second : middle.Reported after) :
    tables.Reported after := by
  obtain ⟨events, moves, journal⟩ := first
  obtain ⟨more, movesToo, journalToo⟩ := second
  exact ⟨events ++ more, moves.trans movesToo, by rw [Journal.addAll_append, journalToo, journal]⟩

end Reported

/-- Closing the ends of an instance is reported end by end. -/
theorem Sound.reported_closeOwned (sound : tables.Sound) (id : InstanceId) :
    tables.register.Moves ((tables.pipes.ownedBy id).map (.pipeClosed id))
      ⟨tables.instances, (tables.pipes.closeOwnedBy id).registry.holdings⟩ := by
  have moves := Register.moves_close tables.instances (sound.numbered.nodup_ownedBy id)
    fun endpoint listed => sound.numbered.mem_ownedBy_iff.mp listed
  have closed := sound.numbered.holdings_closeAll (tables.pipes.ownedBy id)
  rw [← closed] at moves
  exact moves

/-- The end of an instance without an exit is reported. -/
theorem Sound.reported_teardown (sound : tables.Sound) (id : InstanceId) :
    tables.Reported (tables.teardown id) := by
  rw [teardown_eq]
  exact ⟨_, sound.reported_closeOwned id, rfl⟩

/-- The ends of some instances without an exit are reported. -/
theorem Sound.reported_foldl_teardown (sound : tables.Sound) (ids : List InstanceId) :
    tables.Reported (ids.foldl teardown tables) := by
  induction ids generalizing tables with
  | nil => exact .of_same rfl rfl
  | cons id rest ih => exact (sound.reported_teardown id).trans (ih (sound.foldl_teardown [id]).1)

/-- The exit of a running instance is reported, and then that its ends are closed. -/
theorem Sound.reported_exit (sound : tables.Sound) {id : InstanceId}
    (running : id ∈ tables.instances.running) (result : Except String Int8) :
    tables.Reported (tables.exit id result) := by
  rw [exit_eq sound running result]
  have exited : tables.register.Move (.exited id (ending result).1 (ending result).2)
      ⟨tables.instances.retire id (ending result).1 (ending result).2,
        tables.pipes.holdings⟩ := .exits running
  -- The ends are closed once the record is changed.
  have retired : ({ tables with
      instances := tables.instances.retire id (ending result).1 (ending result).2 } :
        Tables π).Sound :=
    ⟨sound.numbered, sound.counted, sound.indexed.retire _ _ _, sound.consistent⟩
  exact ⟨_, exited.moves.trans (retired.reported_closeOwned id), rfl⟩

/-- Exchanged bytes are not reported, and exit codes that are learnt are. -/
theorem Exchanges.reported (sound : tables.Sound) (exchanges : Exchanges caller tables after) :
    tables.Reported after := by
  induction exchanges with
  | refl => exact .of_same rfl rfl
  | @tail middle last earlier exchange ih =>
    have soundToo := (Exchanges.keeps sound earlier).1
    refine ih.trans ?_
    cases exchange with
    | reads endpoint limit =>
      have outcome := soundToo.numbered.read_case caller endpoint limit
      exact .of_same (congrArg (Register.mk middle.instances) outcome.holdings) rfl
    | writes endpoint data =>
      have outcome := soundToo.numbered.write_case caller endpoint data
      exact .of_same (congrArg (Register.mk middle.instances) outcome.holdings) rfl
    | joins exited => exact .of_move (.joins exited) rfl rfl

/-- Whatever a call comes to is reported. -/
theorem CallCase.reported (sound : tables.Sound) {request : Request} {progress : Progress}
    (outcome : CallCase tables caller request progress after) : tables.Reported after := by
  cases outcome with
  | @connects first second next numbers =>
    have extended := PipeRegistry.holdings_extend tables.pipes first second next caller
    have fresh := (sound.numbered.extend numbers caller).nodup_endpoints
    rw [extended] at fresh
    exact .of_move (.connects fresh) (congrArg (Register.mk tables.instances) extended) rfl
  | @spawns _ _ endpoints _ record loaded held found named =>
    have given := sound.numbered.holdings_transfer endpoints ⟨tables.instances.nextId⟩
    exact .of_move (.spawns named fun endpoint listed => ⟨caller, rfl, held endpoint listed⟩)
      (congrArg (Register.mk (tables.instances.enlist (some caller) (record.depth + 1))) given) rfl
  | @closes endpoint pipe _ holds =>
    exact .of_move (.closes (sound.numbered.holds_iff.mp ⟨pipe, holds⟩))
      (congrArg (Register.mk tables.instances) (sound.numbered.holdings_shut holds)) rfl
  | repeats | refused => exact .of_same rfl rfl
  | exchanges _ exchanges => exact exchanges.reported sound

end Tables

/-- Whatever a deed does to the records and the ends is reported. -/
theorem Session.Step.reported {π β σ : Type} {behaviour : Behaviour π β σ}
    {discipline : Session.Discipline} {polled : Option InstanceId} {session after : Session π β σ}
    {deed : Session.Deed π} (steady : Session.Steady polled session)
    (step : Session.Step behaviour discipline polled session deed after) :
    session.tables.Reported after.tables := by
  have sound := steady.orderly.sound
  cases step with
  | boots idle descriptor argv =>
    unfold boot
    rcases Tables.boot_case sound descriptor argv with
      ⟨error, same⟩ | ⟨program, loaded, empty, next, same⟩
    · rw [same]
      exact .of_same rfl rfl
    · rw [same]
      have move : session.tables.register.Move
          (.spawned ⟨session.tables.instances.nextId⟩ none [])
          ⟨session.tables.instances.enlist none 0, _⟩ :=
        .spawns (by simp [Tables.register, next]) (by simp)
      rw [Holding.give_nil, List.map_id, next] at move
      exact .of_move move rfl rfl
  | starts idle ongoing oldest =>
    rw [start_eq]
    exact .of_same rfl rfl
  | polls | stirs | rests => exact .of_same rfl rfl
  | @calls caller request progress tables _ performed =>
    exact (Tables.CallCase.of_perform sound performed).reported sound
  | @resumes caller pending progress tables _ resumed =>
    exact (Tables.Exchanges.of_resume resumed).reported sound
  | @ends id acting result =>
    exact sound.reported_exit (steady.running acting) result
  | finishes => exact sound.reported_foldl_teardown _

end Progeny
