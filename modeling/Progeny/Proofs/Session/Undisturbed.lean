import Progeny.Proofs.Instance.Records
import Progeny.Proofs.Pipe.Counted
import Progeny.Proofs.Pipe.Owners
import Progeny.Proofs.Pipe.Signals
import Progeny.Proofs.Session.Counts
import Progeny.Proofs.Session.Effects

/-! The tables stay sound through every call and every exit, and what others hold is left to them:
their ends, their records, and a signal for everything they may wait for. -/

namespace Progeny.Journal

variable {ε : Type}

/-- Adds entries at the end, if entries are kept. -/
def addAll (journal : Journal ε) (entries : List ε) : Journal ε :=
  entries.foldl add journal

/-- A journal that keeps entries keeps all that are added. -/
theorem addAll_eq {journal : Journal ε} (kept : journal.isKept = true) (entries : List ε) :
    journal.addAll entries = { journal with entries := journal.entries ++ entries } := by
  -- Entry by entry, the list grows at its end.
  unfold addAll
  induction entries generalizing journal with
  | nil => simp
  | cons entry rest ih =>
    have added : journal.add entry = { journal with entries := journal.entries ++ [entry] } := by
      simp [add, kept]
    have keptToo : (journal.add entry).isKept = true := by rw [added, kept]
    rw [List.foldl_cons, ih keptToo, added]
    simp

/-- Whether entries are kept does not depend on them. -/
@[simp] theorem isKept_addAll (journal : Journal ε) (entries : List ε) :
    (journal.addAll entries).isKept = journal.isKept := by
  unfold addAll
  induction entries generalizing journal with
  | nil => rfl
  | cons entry rest ih =>
    rw [List.foldl_cons, ih]
    unfold add
    split <;> rfl

/-- Entries added in two parts are added in a row. -/
theorem addAll_append (journal : Journal ε) (entries more : List ε) :
    journal.addAll (entries ++ more) = (journal.addAll entries).addAll more :=
  List.foldl_append

end Progeny.Journal

namespace Progeny.Tables

variable {π : Type}

/-- Pipes and records are numbered, open ends are counted, and nothing was found to be
inconsistent. -/
structure Sound (tables : Tables π) : Prop where
  numbered : tables.pipes.Numbered
  counted : tables.pipes.Counted
  indexed : tables.instances.Indexed
  consistent : tables.violation = none

/-- What the others find after something that one instance did: their ends as they were, a signal
for every change in a pipe, and every record, unless it is that of the one instance. -/
structure Undisturbed (caller : InstanceId) (before after : Tables π) : Prop where
  announced : ∃ signals, before.pipes.Announced after.pipes signals ∧ ∀ endpoint,
    after.signals.count endpoint = before.signals.count endpoint + signals.count endpoint
  spared : PipeRegistry.Spares caller before.pipes after.pipes
  records : ∀ {id : InstanceId} {record : InstanceRecord},
    before.instances.find? id = some record → ∃ later, after.instances.find? id = some later ∧
      (id ≠ caller → later = record)

variable {caller : InstanceId} {tables after : Tables π}

namespace Undisturbed

/-- Where nothing changes nobody is disturbed. -/
theorem refl (caller : InstanceId) (tables : Tables π) : Undisturbed caller tables tables :=
  ⟨⟨[], .refl tables.pipes [], fun _ => rfl⟩, .refl caller tables.pipes,
    fun found => ⟨_, found, fun _ => rfl⟩⟩

/-- Whoever is not disturbed by two steps is not disturbed by both. -/
theorem trans {middle : Tables π} (first : Undisturbed caller tables middle)
    (second : Undisturbed caller middle after) : Undisturbed caller tables after where
  -- Signals add up, and what nobody else touched twice was never touched.
  announced := by
    obtain ⟨signals, announced, counts⟩ := first.announced
    obtain ⟨further, announcedToo, countsToo⟩ := second.announced
    refine ⟨signals ++ further, announced.trans announcedToo, fun endpoint => ?_⟩
    rw [countsToo, counts, List.count_append, Nat.add_assoc]
  spared := first.spared.trans second.spared
  records found := by
    obtain ⟨later, there, same⟩ := first.records found
    obtain ⟨last, still, sameToo⟩ := second.records there
    exact ⟨last, still, fun other => (sameToo other).trans (same other)⟩

/-- An exit code stays, whatever an instance that runs does. -/
theorem exitCode (sound : tables.Sound) (running : caller ∈ tables.instances.running)
    (undisturbed : Undisturbed caller tables after) {id : InstanceId} {code : Int8}
    (exited : tables.instances.exitCode id = some code) :
    after.instances.exitCode id = some code := by
  have differ : id ≠ caller := by
    rintro rfl
    exact sound.indexed.notMem_running exited running
  obtain ⟨record, found, held⟩ := Option.bind_eq_some_iff.mp exited
  obtain ⟨later, still, same⟩ := undisturbed.records found
  rw [InstanceTable.exitCode, still, same differ]
  exact held

/-- An operation on the pipes disturbs nobody if it signals what it changes and spares the ends of
others. -/
theorem settle {α : Type} {served : Served α}
    (announced : tables.pipes.Announced served.registry served.signals)
    (spared : PipeRegistry.Spares caller tables.pipes served.registry) :
    Undisturbed caller tables (tables.settle served) :=
  ⟨⟨served.signals, announced, SignalCounts.count_addAll tables.signals served.signals⟩, spared,
    fun found => ⟨_, found, fun _ => rfl⟩⟩

end Undisturbed

/-- The first instance is refused, or it is enlisted where there is no other. -/
theorem boot_case (sound : tables.Sound) (descriptor : Descriptor) (argv : List Bytes) :
    (∃ error, tables.boot descriptor argv = (.error error, tables)) ∨
    ∃ program, tables.load descriptor = .ok program ∧ tables.instances.records = [] ∧
      tables.instances.nextId = 0 ∧
      tables.boot descriptor argv = (.ok .root,
        ({ tables with
          instances := tables.instances.enlist none 0
          launches := tables.launches ++ [⟨.root, program, argv, []⟩] } : Tables π).report
          (.spawned .root none [])) := by
  unfold boot
  cases loaded : tables.load descriptor with
  | error error => exact .inl ⟨_, rfl⟩
  | ok program =>
    by_cases empty : tables.instances.records = []
    · rw [sound.indexed.allocateRoot_ok empty]
      exact .inr ⟨program, rfl, empty, sound.indexed.next_eq_zero empty, rfl⟩
    · simp only [InstanceTable.allocateRoot, if_neg empty]
      exact .inl ⟨_, rfl⟩

/-- A spawn fails, or it hands the endpoints to a new child and enlists it. -/
theorem spawn_case (sound : tables.Sound) (descriptor : Descriptor) (argv : List Bytes)
    (endpoints : List Endpoint) :
    (∃ error, tables.spawn caller descriptor argv endpoints = (.error error, tables)) ∨
    ∃ program record, tables.load descriptor = .ok program ∧
      tables.pipes.checkTransfer caller endpoints = .ok () ∧
      tables.instances.find? caller = some record ∧
      tables.instances.running.length < tables.instances.maxInstances.toNat ∧
      record.depth + 1 ≤ tables.instances.maxDepth ∧ tables.instances.nextId + 1 ≠ 0 ∧
      tables.spawn caller descriptor argv endpoints = (.ok ⟨tables.instances.nextId⟩,
        ({ tables with
          pipes := tables.pipes.transfer endpoints ⟨tables.instances.nextId⟩
          instances := tables.instances.enlist (some caller) (record.depth + 1)
          launches := tables.launches ++
            [⟨⟨tables.instances.nextId⟩, program, argv, endpoints⟩] } : Tables π).report
          (.spawned ⟨tables.instances.nextId⟩ (some caller) endpoints)) := by
  -- The checks are made in this order, and whichever fails leaves the tables alone.
  unfold spawn
  cases loaded : tables.load descriptor with
  | error error => exact .inl ⟨error, rfl⟩
  | ok program =>
    cases checked : tables.pipes.checkTransfer caller endpoints with
    | error error => exact .inl ⟨error, rfl⟩
    | ok passed =>
      have outcome := sound.indexed.allocate_case caller
      generalize tables.instances.allocate caller = result at outcome
      cases outcome with
      | denied => exact .inl ⟨_, rfl⟩
      | creates found vacancy shallow named =>
        exact .inr ⟨program, _, rfl, rfl, found, vacancy, shallow, named, rfl⟩

/-- A spawn for which everything is in place creates the child. -/
theorem spawn_ok (sound : tables.Sound) {descriptor : Descriptor} {program : π}
    {argv : List Bytes} {endpoints : List Endpoint} {record : InstanceRecord}
    (loaded : tables.load descriptor = .ok program)
    (checked : tables.pipes.checkTransfer caller endpoints = .ok ())
    (found : tables.instances.find? caller = some record)
    (vacancy : tables.instances.running.length < tables.instances.maxInstances.toNat)
    (shallow : record.depth + 1 ≤ tables.instances.maxDepth)
    (named : tables.instances.nextId + 1 ≠ 0) :
    tables.spawn caller descriptor argv endpoints = (.ok ⟨tables.instances.nextId⟩,
      ({ tables with
        pipes := tables.pipes.transfer endpoints ⟨tables.instances.nextId⟩
        instances := tables.instances.enlist (some caller) (record.depth + 1)
        launches := tables.launches ++
          [⟨⟨tables.instances.nextId⟩, program, argv, endpoints⟩] } : Tables π).report
        (.spawned ⟨tables.instances.nextId⟩ (some caller) endpoints)) := by
  simp only [spawn, loaded, checked, sound.indexed.allocate_ok found vacancy shallow named]

/-- Reports of closed endpoints go to the journal one by one. -/
theorem reportClosed_eq (tables : Tables π) (owner : InstanceId) (endpoints : List Endpoint) :
    tables.reportClosed owner endpoints = { tables with
      journal := tables.journal.addAll (endpoints.map (.pipeClosed owner)) } := by
  -- Each report goes behind those before it.
  induction endpoints generalizing tables with
  | nil => rfl
  | cons endpoint rest ih => exact ih (tables.report (.pipeClosed owner endpoint))

/-- The exit code and the fault that are recorded for the way in which an instance ended. -/
def ending : Except String Int8 → Int8 × Option String
  | .ok code => (code, none)
  | .error message => (faultCode, some message)

/-- The exit of a running instance is recorded, and its ends are closed. -/
theorem exit_eq (sound : tables.Sound) {id : InstanceId} (running : id ∈ tables.instances.running)
    (result : Except String Int8) :
    tables.exit id result = { tables with
      pipes := (tables.pipes.closeOwnedBy id).registry
      instances := tables.instances.retire id (ending result).1 (ending result).2
      signals := tables.signals.addAll (tables.pipes.closeOwnedBy id).signals
      journal := (tables.journal.add (.exited id (ending result).1 (ending result).2)).addAll
        ((tables.pipes.ownedBy id).map (.pipeClosed id)) } := by
  -- The record is found running, so marking it exited succeeds.
  obtain ⟨record, found, state⟩ := sound.indexed.mem_running.mp running
  have marked (code : Int8) (fault : Option String) :=
    InstanceTable.markExited_of_running found state code fault
  cases result <;> simp only [exit, marked, ending] <;> exact reportClosed_eq _ _ _

namespace Undisturbed

/-- No effect of a call disturbs others. -/
theorem of_effect (sound : tables.Sound) (effect : Effect caller tables after) :
    Undisturbed caller tables after := by
  cases effect with
  | reads endpoint limit =>
    have outcome := sound.numbered.read_case caller endpoint limit
    exact settle (outcome.announced sound.numbered) outcome.spares
  | writes endpoint data =>
    have outcome := sound.numbered.write_case caller endpoint data
    exact settle outcome.announced outcome.spares
  | creates =>
    have outcome := sound.numbered.create_case caller
    have settled := settle (outcome.announced sound.numbered).2 outcome.spares
    unfold createPipe
    dsimp only
    split
    · exact settled
    · exact ⟨settled.announced, settled.spared, settled.records⟩
  | closes endpoint =>
    have outcome := sound.numbered.close_case caller endpoint
    have settled := settle (outcome.announced sound.numbered).2 outcome.spares
    unfold closeEndpoint
    dsimp only
    split
    · exact settled
    · exact ⟨settled.announced, settled.spared, settled.records⟩
    · exact settled
  | spawns descriptor argv endpoints =>
    rcases spawn_case sound descriptor argv endpoints with
      ⟨error, same⟩ | ⟨program, record, -, checked, -, -, -, named, same⟩
    · rw [same]
      exact .refl caller tables
    · rw [same]
      obtain ⟨owned, once⟩ := PipeRegistry.Owned.of_checkTransfer sound.numbered checked
      exact ⟨⟨[], (PipeRegistry.Announced.transfer sound.numbered endpoints _).2, fun _ => rfl⟩,
        .transfer sound.numbered owned once _, fun {id} record found =>
          ⟨record, sound.indexed.find?_enlist_of_some named _ _ found, fun _ => rfl⟩⟩
  | joins exited => exact ⟨(refl caller tables).announced, .refl caller _, (refl caller _).records⟩

/-- The exit of an instance does not disturb others. -/
theorem exit (sound : tables.Sound) {id : InstanceId} (running : id ∈ tables.instances.running)
    (result : Except String Int8) : Undisturbed id tables (tables.exit id result) := by
  -- Closing ends signals them, and only the record of the one who exits is changed.
  have same := exit_eq sound running result
  rw [same]
  have closed := PipeRegistry.Announced.closeAll sound.numbered (tables.pipes.ownedBy id)
  have settled : Undisturbed id tables (tables.settle (tables.pipes.closeOwnedBy id)) :=
    settle closed.2 (.closeOwnedBy sound.numbered id)
  refine ⟨settled.announced, settled.spared, fun {other} record found => ?_⟩
  change ∃ later, (tables.instances.retire id _ _).find? other = _ ∧ _
  rw [sound.indexed.find?_retire, found]
  refine ⟨_, rfl, fun differ => ?_⟩
  simp [differ]

end Undisturbed

/-- What an effect of a call adds to the instances: it keeps the tables sound, and every new record
is that of a new launch. -/
theorem Effect.sound (sound : tables.Sound) (effect : Effect caller tables after) :
    after.Sound ∧ ∃ new, after.launches = tables.launches ++ new ∧
      after.instances.running = tables.instances.running ++ new.map Launch.id := by
  -- Only a spawn adds to the launches, and it adds the same to the running instances.
  have unchanged : ∃ new, tables.launches = tables.launches ++ new ∧
      tables.instances.running = tables.instances.running ++ new.map Launch.id :=
    ⟨[], by simp, by simp⟩
  cases effect with
  | reads endpoint limit =>
    have outcome := sound.numbered.read_case caller endpoint limit
    exact ⟨⟨outcome.numbered sound.numbered, outcome.counted sound.counted, sound.indexed,
      sound.consistent⟩, unchanged⟩
  | writes endpoint data =>
    have outcome := sound.numbered.write_case caller endpoint data
    exact ⟨⟨outcome.numbered sound.numbered, outcome.counted sound.counted, sound.indexed,
      sound.consistent⟩, unchanged⟩
  | creates =>
    have outcome := sound.numbered.create_case caller
    have numbered := (outcome.announced sound.numbered).1
    have counted := outcome.counted sound.counted
    unfold createPipe
    dsimp only
    split <;> exact ⟨⟨numbered, counted, sound.indexed, sound.consistent⟩, unchanged⟩
  | closes endpoint =>
    have outcome := sound.numbered.close_case caller endpoint
    have numbered := (outcome.announced sound.numbered).1
    have counted := outcome.counted sound.counted
    unfold closeEndpoint
    dsimp only
    split <;> exact ⟨⟨numbered, counted, sound.indexed, sound.consistent⟩, unchanged⟩
  | spawns descriptor argv endpoints =>
    rcases spawn_case sound descriptor argv endpoints with
      ⟨error, same⟩ | ⟨program, record, -, checked, -, -, -, named, same⟩
    · rw [same]
      exact ⟨sound, unchanged⟩
    · rw [same]
      refine ⟨⟨(PipeRegistry.Announced.transfer sound.numbered endpoints _).1,
        sound.counted.transfer sound.numbered endpoints _, sound.indexed.enlist named _ _,
        sound.consistent⟩, [_], rfl, ?_⟩
      exact InstanceTable.running_enlist _ _
  | joins exited =>
    exact ⟨⟨sound.numbered, sound.counted, sound.indexed, sound.consistent⟩, unchanged⟩

/-- What a sequence of effects comes to: sound tables, nobody disturbed, and a launch for every new
record. -/
theorem Effects.sound (sound : tables.Sound) (effects : Effects caller tables after) :
    after.Sound ∧ Undisturbed caller tables after ∧ ∃ new,
      after.launches = tables.launches ++ new ∧
      after.instances.running = tables.instances.running ++ new.map Launch.id := by
  -- Whatever is added last stands last in both lists.
  induction effects with
  | refl => exact ⟨sound, .refl caller tables, [], by simp, by simp⟩
  | tail _ last ih =>
    obtain ⟨soundToo, undisturbed, new, launches, running⟩ := ih
    obtain ⟨soundLast, newer, launchesToo, runningToo⟩ := last.sound soundToo
    refine ⟨soundLast, undisturbed.trans (.of_effect soundToo last), new ++ newer, ?_, ?_⟩
    · rw [launchesToo, launches, List.append_assoc]
    · rw [runningToo, running, List.map_append, List.append_assoc]

/-- The exit of a running instance keeps the tables sound and takes it off the running ones. -/
theorem Sound.exit (sound : tables.Sound) {id : InstanceId}
    (running : id ∈ tables.instances.running) (result : Except String Int8) :
    (tables.exit id result).Sound ∧ (tables.exit id result).launches = tables.launches ∧
      (tables.exit id result).instances.running =
        tables.instances.running.filter (· ≠ id) := by
  -- Its ends are closed and its record is retired, and neither harms what is sound.
  have same := exit_eq sound running result
  rw [same]
  have closed := PipeRegistry.Announced.closeAll sound.numbered (tables.pipes.ownedBy id)
  exact ⟨⟨closed.1, sound.counted.closeAll sound.numbered _, sound.indexed.retire _ _ _,
    sound.consistent⟩, rfl, InstanceTable.running_retire id _ _⟩

/-- Closing the ends of an instance changes the pipes, and what is said of them. -/
theorem teardown_eq (tables : Tables π) (id : InstanceId) :
    tables.teardown id = { tables.settle (tables.pipes.closeOwnedBy id) with
      journal := tables.journal.addAll ((tables.pipes.ownedBy id).map (.pipeClosed id)) } :=
  reportClosed_eq _ id _

/-- Closing the ends of some instances changes the pipes, and what is said of them. -/
theorem foldl_teardown_eq (ids : List InstanceId) (tables : Tables π) :
    ∃ pipes signals journal, ids.foldl teardown tables =
      { tables with pipes := pipes, signals := signals, journal := journal } := by
  induction ids generalizing tables with
  | nil => exact ⟨_, _, _, rfl⟩
  | cons id rest ih =>
    rw [List.foldl_cons, teardown_eq]
    exact ih _

/-- Closing the ends of instances that have not exited keeps the tables sound and every record. -/
theorem Sound.foldl_teardown (sound : tables.Sound) (ids : List InstanceId) :
    (ids.foldl teardown tables).Sound ∧
      (ids.foldl teardown tables).instances = tables.instances := by
  -- Ends are closed for one identity after another, and no record is changed.
  induction ids generalizing tables with
  | nil => exact ⟨sound, rfl⟩
  | cons id rest ih =>
    rw [List.foldl_cons, teardown_eq]
    have closed := PipeRegistry.Announced.closeAll sound.numbered (tables.pipes.ownedBy id)
    exact ih ⟨closed.1, sound.counted.closeAll sound.numbered _, sound.indexed, sound.consistent⟩

end Progeny.Tables
