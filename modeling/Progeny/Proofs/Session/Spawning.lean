import Progeny.Proofs.Pipe.Gifts
import Progeny.Proofs.Session.History

/-! A spawn succeeds exactly if every check passes, and then it changes what it says and nothing
else. Otherwise the first check that fails is the answer, and nothing is changed at all. -/

namespace Progeny

namespace Tables

variable {π : Type}

/-- Everything is in place for an instance to create a child: the program is known, the endpoints
may be given away, the creator is recorded and above the deepest generation, and there is room for
another running instance. -/
structure Admits (tables : Tables π) (caller : InstanceId) (descriptor : Descriptor)
    (endpoints : List Endpoint) : Prop where
  loaded : ∃ program, tables.load descriptor = .ok program
  givable : tables.pipes.Givable caller endpoints
  vacancy : tables.instances.runningCount < tables.instances.maxInstances.toNat
  above : ∃ record, tables.instances.find? caller = some record ∧
    record.depth < tables.instances.maxDepth

/-- Why an instance cannot create a child: the first of the checks that fails, where the order is
that of the cases. -/
inductive Denies (tables : Tables π) (caller : InstanceId) (descriptor : Descriptor)
    (endpoints : List Endpoint) : CallError → Prop where
  | program {error : CallError} (refused : tables.load descriptor = .error error) :
    Denies tables caller descriptor endpoints error
  | endpoint {program : π} {endpoint : Endpoint} (loaded : tables.load descriptor = .ok program)
      (fails : tables.pipes.FailsAt caller endpoints endpoint) :
    Denies tables caller descriptor endpoints (.invalidEndpoint endpoint)
  | caller {program : π} (loaded : tables.load descriptor = .ok program)
      (givable : tables.pipes.Givable caller endpoints)
      (unknown : tables.instances.find? caller = none) :
    Denies tables caller descriptor endpoints (.invalidInstance caller)
  | instances {program : π} {record : InstanceRecord}
      (loaded : tables.load descriptor = .ok program)
      (givable : tables.pipes.Givable caller endpoints)
      (found : tables.instances.find? caller = some record)
      (crowded : tables.instances.maxInstances.toNat ≤ tables.instances.runningCount) :
    Denies tables caller descriptor endpoints
      (.exhausted .instances tables.instances.maxInstances)
  | depth {program : π} {record : InstanceRecord} (loaded : tables.load descriptor = .ok program)
      (givable : tables.pipes.Givable caller endpoints)
      (found : tables.instances.find? caller = some record)
      (vacancy : tables.instances.runningCount < tables.instances.maxInstances.toNat)
      (deepest : tables.instances.maxDepth ≤ record.depth) :
    Denies tables caller descriptor endpoints
      (.exhausted .depth tables.instances.maxDepth.toUInt64)

/-- The tables with a child of an instance: listed ends have it as their owner, a record and a
launch are added for it at the end, and its creation is reported. -/
def withChild (tables : Tables π) (child caller : InstanceId) (record : InstanceRecord)
    (program : π) (argv : List Bytes) (endpoints : List Endpoint) : Tables π :=
  { tables with
    pipes := { tables.pipes with pipes := tables.pipes.pipes.map (Pipe.give endpoints child) }
    instances := { tables.instances with
      nextId := tables.instances.nextId + 1
      records := tables.instances.records ++
        [⟨child, some caller, record.depth + 1, .running, none⟩] }
    launches := tables.launches ++ [⟨child, program, argv, endpoints⟩]
    journal := tables.journal.add (.spawned child (some caller) endpoints) }

variable {tables : Tables π} {caller : InstanceId} {descriptor : Descriptor}
  {endpoints : List Endpoint}

/-- Every check passes, or one of them is the first that fails. -/
theorem admits_or_denies (sound : tables.Sound) (caller : InstanceId) (descriptor : Descriptor)
    (endpoints : List Endpoint) : tables.Admits caller descriptor endpoints ∨
      ∃ error, tables.Denies caller descriptor endpoints error := by
  -- The checks are looked at in the order in which they are made.
  cases loaded : tables.load descriptor with
  | error error => exact .inr ⟨error, .program loaded⟩
  | ok program =>
    cases checked : tables.pipes.checkTransfer caller endpoints with
    | error error =>
      obtain ⟨endpoint, fails, rfl⟩ := sound.numbered.checkTransfer_error_iff.mp checked
      exact .inr ⟨_, .endpoint loaded fails⟩
    | ok passed =>
      have givable := sound.numbered.checkTransfer_ok_iff.mp checked
      cases found : tables.instances.find? caller with
      | none => exact .inr ⟨_, .caller loaded givable found⟩
      | some record =>
        rcases Nat.lt_or_ge tables.instances.runningCount
          tables.instances.maxInstances.toNat with vacancy | crowded
        · by_cases above : record.depth < tables.instances.maxDepth
          · exact .inl ⟨⟨program, loaded⟩, givable, vacancy, record, found, above⟩
          · exact .inr ⟨_, .depth loaded givable found vacancy (UInt32.not_lt.mp above)⟩
        · exact .inr ⟨_, .instances loaded givable found crowded⟩

/-- The first check that fails is the answer to the caller, and the tables stay as they are. -/
theorem Denies.spawn_eq (sound : tables.Sound) {error : CallError}
    (denies : tables.Denies caller descriptor endpoints error)
    (deepens : ∀ record, tables.instances.find? caller = some record → record.depth + 1 ≠ 0)
    (argv : List Bytes) :
    tables.spawn caller descriptor argv endpoints = (.error error, tables) := by
  cases denies with
  | program refused => simp only [spawn, refused]
  | endpoint loaded fails =>
    have checked := sound.numbered.checkTransfer_error_iff.mpr ⟨_, fails, rfl⟩
    simp only [spawn, loaded, checked]
  | caller loaded givable unknown =>
    have checked := sound.numbered.checkTransfer_ok_iff.mpr givable
    simp only [spawn, loaded, checked, InstanceTable.allocate_of_unknown unknown]
  | instances loaded givable found crowded =>
    have checked := sound.numbered.checkTransfer_ok_iff.mpr givable
    simp only [spawn, loaded, checked, InstanceTable.allocate_of_crowded found crowded]
  | depth loaded givable found vacancy deepest =>
    have checked := sound.numbered.checkTransfer_ok_iff.mpr givable
    have beyond := InstanceRecord.deeper_le_iff (deepens _ found) tables.instances.maxDepth
    have deep := UInt32.not_le.mp fun shallow => UInt32.not_lt.mpr deepest (beyond.mp shallow)
    simp only [spawn, loaded, checked, InstanceTable.allocate_of_deep found vacancy deep]

/-- A caller for whom every check passes gets its child. -/
theorem Admits.spawn_eq (sound : tables.Sound)
    (admits : tables.Admits caller descriptor endpoints)
    (deepens : ∀ record, tables.instances.find? caller = some record → record.depth + 1 ≠ 0)
    (named : tables.instances.nextId + 1 ≠ 0) (argv : List Bytes) :
    ∃ program record, tables.load descriptor = .ok program ∧
      tables.instances.find? caller = some record ∧
      tables.spawn caller descriptor argv endpoints =
        (.ok ⟨tables.instances.nextId⟩,
          tables.withChild ⟨tables.instances.nextId⟩ caller record program argv endpoints) := by
  obtain ⟨⟨program, loaded⟩, givable, vacancy, record, found, above⟩ := admits
  have checked := sound.numbered.checkTransfer_ok_iff.mpr givable
  have shallow := (InstanceRecord.deeper_le_iff (deepens record found) _).mpr above
  rw [InstanceTable.runningCount_eq] at vacancy
  refine ⟨program, record, loaded, found, ?_⟩
  rw [spawn_ok sound loaded checked found vacancy shallow named, sound.numbered.transfer_eq]
  rfl

end Tables

namespace Session

variable {π β σ : Type} {behaviour : Behaviour π β σ} {deeds : List (Deed π)}
  {session : Session π β σ}

/-- Whatever has happened to a session before, and unless identities or generations are used up, a
spawn succeeds exactly if everything is in place for it. Then the child has an identity that nobody
had, and the tables are the same but for it: the listed ends change their owner and nothing else,
the record and the launch of the child come last, and its creation is reported. A spawn that fails
is answered with the first check that fails, from the program over the endpoints from left to right
and the caller to the two budgets, and it changes nothing. -/
theorem spawn_exact (history : History behaviour .free deeds session) (caller : InstanceId)
    (descriptor : Descriptor) (argv : List Bytes) (endpoints : List Endpoint)
    (named : session.tables.instances.nextId + 1 ≠ 0)
    (deepens : ∀ record, session.tables.instances.find? caller = some record →
      record.depth + 1 ≠ 0) :
    let tables := session.tables
    let spawned := tables.spawn caller descriptor argv endpoints
    ((∃ child, spawned.1 = .ok child) ↔ tables.Admits caller descriptor endpoints) ∧
    (∀ child, spawned.1 = .ok child →
      child ∉ tables.instances.records.map InstanceRecord.id ∧ ∃ program record,
        tables.load descriptor = .ok program ∧ tables.instances.find? caller = some record ∧
        (record.depth + 1).toNat = record.depth.toNat + 1 ∧
        spawned.2 = tables.withChild child caller record program argv endpoints) ∧
    (∀ error, spawned.1 = .error error ↔ tables.Denies caller descriptor endpoints error) ∧
    ∀ error, spawned.1 = .error error → spawned.2 = tables := by
  intro tables spawned
  have sound : tables.Sound := history.steady.orderly.sound
  have denied {error : CallError} (denies : tables.Denies caller descriptor endpoints error) :
      spawned = (.error error, tables) := denies.spawn_eq sound deepens argv
  rcases Tables.admits_or_denies sound caller descriptor endpoints with admits | ⟨reason, denies⟩
  · obtain ⟨program, record, loaded, found, created⟩ := admits.spawn_eq sound deepens named argv
    have created : spawned = _ := created
    rw [created]
    refine ⟨⟨fun _ => admits, fun _ => ⟨_, rfl⟩⟩, fun child same => ?_, fun error => ⟨?_, ?_⟩, ?_⟩
    · obtain rfl := Except.ok.inj same
      exact ⟨sound.indexed.next_notMem, program, record, loaded, found,
        InstanceRecord.toNat_deeper (deepens record found), rfl⟩
    · intro failed
      simp at failed
    · -- Nothing that is denied would have been created.
      intro denies
      rw [denied denies] at created
      simp at created
    · intro error failed
      simp at failed
  · rw [denied denies]
    refine ⟨⟨?_, fun admits => ?_⟩, ?_, fun error => ⟨fun same => ?_, fun other => ?_⟩, ?_⟩
    · intro succeeded
      obtain ⟨child, same⟩ := succeeded
      simp at same
    · obtain ⟨program, record, -, -, created⟩ := admits.spawn_eq sound deepens named argv
      exact ⟨_, (congrArg Prod.fst (denied denies)).symm.trans (congrArg Prod.fst created)⟩
    · intro child same
      simp at same
    · obtain rfl := Except.error.inj same
      exact denies
    · have same := (denied denies).symm.trans (denied other)
      exact congrArg Prod.fst same
    · intro error _
      rfl

/-- The first instance can come to hold both ends of a pipe, with nobody else there. -/
theorem exists_connected : ∃ (deeds : List (Deed Unit)) (session : Session Unit Unit Unit),
    History quiet .free deeds session ∧ session.tables.load = (fun _ => .ok ()) ∧
    session.tables.pipes = ⟨4096, 64, ⟨3, by decide⟩, 2,
      [⟨⟨.first, .root, true, []⟩, ⟨⟨2, by decide⟩, .root, true, []⟩⟩]⟩ ∧
    session.tables.instances = ⟨16, 8, 1, [⟨.root, none, 0, .running, none⟩]⟩ := by
  have started := (history_solo quiet .free).step (.starts rfl rfl rfl)
  have polled := started.step (.polls rfl rfl (.head _))
  have connected := polled.step (.calls trivial (rfl : Tables.perform _ .root .pipe = _))
  exact ⟨_, _, connected, rfl, rfl, rfl⟩

/-- The holder of a pipe can hand one of its ends to a child. It cannot hand over the same end
twice: then the second mention is refused, and there is no child. -/
theorem spawn_exact_of_gift : ∃ (deeds : List (Deed Unit)) (session : Session Unit Unit Unit),
    History quiet .free deeds session ∧ session.tables.instances.nextId + 1 ≠ 0 ∧
    (∀ record, session.tables.instances.find? .root = some record → record.depth + 1 ≠ 0) ∧
    (∃ child, (session.tables.spawn .root { index := 0, source := 0 } []
      [⟨2, by decide⟩]).1 = .ok child) ∧
    (session.tables.spawn .root { index := 0, source := 0 } []
      [⟨2, by decide⟩, .first, ⟨2, by decide⟩]).1 = .error (.invalidEndpoint ⟨2, by decide⟩) := by
  obtain ⟨deeds, session, history, load, pipes, instances⟩ := exists_connected
  have named : session.tables.instances.nextId + 1 ≠ 0 := by
    rw [instances]
    decide
  have deepens : ∀ record, session.tables.instances.find? .root = some record →
      record.depth + 1 ≠ 0 := by
    rw [instances]
    intro record found
    obtain rfl := Option.some.inj found
    decide
  -- Both ends are open and in the hands of the first instance.
  have held : ∀ endpoint ∈ [⟨2, by decide⟩, .first],
      ∃ pipe, session.tables.pipes.Holds .root endpoint pipe := by
    rw [pipes]
    intro endpoint member
    simp only [List.mem_cons, List.not_mem_nil, or_false] at member
    rcases member with rfl | rfl
    · exact ⟨_, rfl, rfl, rfl⟩
    · exact ⟨_, rfl, rfl, rfl⟩
  have spawns (endpoints : List Endpoint) :=
    spawn_exact history .root { index := 0, source := 0 } [] endpoints named deepens
  refine ⟨deeds, session, history, named, deepens, (spawns _).1.mpr ?_, ((spawns _).2.2.1 _).mpr ?_⟩
  · refine ⟨⟨(), by rw [load]⟩, ⟨fun endpoint member => ?_, by decide⟩, ?_, ?_⟩
    · exact held endpoint (List.mem_cons.mpr (.inl (List.mem_singleton.mp member)))
    · rw [instances]
      decide
    · rw [instances]
      exact ⟨_, rfl, by decide⟩
  · exact .endpoint (congrFun load _) ⟨[⟨2, by decide⟩, .first], [], rfl, ⟨held, by decide⟩,
      fun givable => absurd givable.once (by decide)⟩

end Session

end Progeny
