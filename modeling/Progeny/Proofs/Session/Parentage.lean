import Progeny.Proofs.Session.Capabilities
import Progeny.Proofs.Session.Teardown

/-! The records tell who created whom, how far each instance is from the first, and who owns what:
nobody is named as a parent or as an owner who was not created before. -/

namespace Progeny

/-- Where a new instance stands: the first of all, or a generation below its parent. -/
inductive InstanceTable.Places (table : InstanceTable) : Option InstanceId → UInt32 → Prop where
  | first : Places table none 0
  | below {parent : InstanceId} {above : InstanceRecord} (found : table.find? parent = some above) :
    Places table (some parent) (above.depth + 1)

namespace InstanceTable.Places

variable {table : InstanceTable} {parent : Option InstanceId} {depth : UInt32}

/-- Where an instance stands does not depend on who is created later. -/
theorem enlist (places : table.Places parent depth) (indexed : table.Indexed)
    (named : table.nextId + 1 ≠ 0) (other : Option InstanceId) (beside : UInt32) :
    (table.enlist other beside).Places parent depth := by
  cases places with
  | first => exact .first
  | below found => exact .below (indexed.find?_enlist_of_some named other beside found)

/-- Where an instance stands does not depend on who exits. -/
theorem retire (places : table.Places parent depth) (indexed : table.Indexed) (id : InstanceId)
    (code : Int8) (fault : Option String) : (table.retire id code fault).Places parent depth := by
  cases places with
  | first => exact .first
  | @below parent above found =>
    have still := indexed.find?_retire id code fault parent
    rw [found, Option.map_some] at still
    -- Whether or not it is the parent that exits, its depth is as before.
    have places := InstanceTable.Places.below still
    split at places <;> exact places

end InstanceTable.Places

namespace Session

variable {π β σ : Type} {behaviour : Behaviour π β σ} {discipline : Discipline}
  {deeds : List (Deed π)} {deed : Deed π} {session after : Session π β σ}

/-- The instance that a deed creates, with its creator. Nobody in the session creates the first. -/
def Deed.birth? : Deed π → Option (InstanceId × Option InstanceId)
  | .boots _ _ (.ok id) => some (id, none)
  | .calls parent (.spawn ..) (.finished (.ok (.instance id))) => some (id, some parent)
  | _ => none

/-- All instances that were created, each with its creator. -/
def births (deeds : List (Deed π)) : List (InstanceId × Option InstanceId) :=
  deeds.filterMap Deed.birth?

@[simp] theorem births_concat (deeds : List (Deed π)) (deed : Deed π) :
    births (deeds ++ [deed]) = births deeds ++ deed.birth?.toList := by
  cases born : deed.birth? <;> simp [births, born]

/-- What a deed makes of the records. -/
inductive Deed.Records (before : InstanceTable) : Deed π → InstanceTable → Prop where
  | keeps {deed : Deed π} (unborn : deed.birth? = none) : Records before deed before
  | enlists {deed : Deed π} {parent : Option InstanceId} {depth : UInt32}
      (born : deed.birth? = some (⟨before.nextId⟩, parent)) (named : before.nextId + 1 ≠ 0)
      (places : before.Places parent depth) : Records before deed (before.enlist parent depth)
  | retires {id : InstanceId} (result : Except String Int8) (running : id ∈ before.running) :
    Records before (.ends id result)
      (before.retire id (Tables.ending result).1 (Tables.ending result).2)

/-- Every deed keeps the records, adds one of a new instance, or marks one as exited. -/
theorem Step.records {polled : Option InstanceId} (steady : Steady polled session)
    (step : Step behaviour discipline polled session deed after) :
    deed.Records session.tables.instances after.tables.instances := by
  have sound := steady.orderly.sound
  -- Only booting, calls and exits touch the records.
  cases step with
  | boots idle descriptor argv =>
    unfold boot
    rcases Tables.boot_case sound descriptor argv with
      ⟨error, same⟩ | ⟨program, loaded, empty, next, same⟩
    · rw [same]
      exact .keeps rfl
    · rw [same]
      refine .enlists ?_ ?_ .first
      · simp [Deed.birth?, next, InstanceId.root]
      · simp [next]
  | starts =>
    rw [start_eq]
    exact .keeps rfl
  | polls | stirs | rests => exact .keeps rfl
  | @calls caller request progress tables _ performed =>
    have outcome := Tables.CallCase.of_perform sound performed
    cases outcome with
    | spawns _ _ found named => exact .enlists rfl named (.below found)
    | connects | closes | repeats => exact .keeps rfl
    | refused immediate =>
      refine .keeps ?_
      cases request <;> rfl
    | exchanges begins exchanges =>
      show Deed.Records _ _ tables.instances
      rw [(exchanges.keeps sound).2.1]
      -- A request that can wait creates nobody.
      cases request with
      | pipe | spawn | close => simp [Request.pending?] at begins
      | join | read | readExact | readToEnd | write | writeAll => exact .keeps rfl
  | @resumes caller pending progress tables _ resumed =>
    show Deed.Records _ _ tables.instances
    rw [((Tables.Exchanges.of_resume resumed).keeps sound).2.1]
    exact .keeps rfl
  | @ends id acting result =>
    have running := steady.running acting
    show Deed.Records _ _ (session.tables.exit id result).instances
    rw [Tables.exit_eq sound running result]
    exact .retires result running
  | finishes =>
    rw [finish_instances]
    exact .keeps rfl

/-- The records are those of all births, and each stands where it should. -/
structure Family (deeds : List (Deed π)) (table : InstanceTable) : Prop where
  born : table.records.map (fun record => (record.id, record.parent)) = births deeds
  places : ∀ record ∈ table.records, table.Places record.parent record.depth

/-- Every deed adds to the records whom it creates. -/
theorem Family.step {polled : Option InstanceId} (family : Family deeds session.tables.instances)
    (steady : Steady polled session)
    (step : Step behaviour discipline polled session deed after) :
    Family (deeds ++ [deed]) after.tables.instances := by
  have indexed := steady.orderly.sound.indexed
  have records := step.records steady
  generalize session.tables.instances = before at *
  generalize after.tables.instances = later at *
  cases records with
  | keeps unborn =>
    refine ⟨?_, family.places⟩
    rw [births_concat, unborn]
    simpa using family.born
  | @enlists _ parent depth born named places =>
    refine ⟨?_, fun record member => ?_⟩
    · rw [births_concat, born, ← family.born]
      simp [InstanceTable.enlist]
    · simp only [InstanceTable.enlist, List.mem_append, List.mem_singleton] at member
      rcases member with earlier | rfl
      · exact (family.places record earlier).enlist indexed named parent depth
      · exact places.enlist indexed named parent depth
  | @retires id result running =>
    refine ⟨?_, fun record member => ?_⟩
    · rw [births_concat, ← family.born]
      simp only [InstanceTable.retire, List.map_map, Deed.birth?, Option.toList_none,
        List.append_nil]
      refine List.map_congr_left fun record _ => ?_
      simp only [Function.comp_apply]
      split <;> rfl
    · obtain ⟨held, earlier, rfl⟩ := List.mem_map.mp member
      have places := (family.places held earlier).retire indexed id
        (Tables.ending result).1 (Tables.ending result).2
      split <;> exact places

/-- In every history the records are those of all births. -/
theorem History.family (history : History behaviour discipline deeds session) :
    Family deeds session.tables.instances := by
  refine history.induction (fun deeds session => Family deeds session.tables.instances) ?_
    fun steady family step => family.step steady step
  intro config load keepsEvents tables shared valid
  obtain rfl := new_eq valid
  exact ⟨rfl, by simp [ofTables]⟩

/-- Nobody's record is ever taken away. -/
theorem Deed.Records.recorded {before later : InstanceTable} (records : deed.Records before later)
    {id : InstanceId} (there : id ∈ before.records.map InstanceRecord.id) :
    id ∈ later.records.map InstanceRecord.id := by
  cases records with
  | keeps => exact there
  | enlists =>
    rw [InstanceTable.enlist, List.map_append]
    exact List.mem_append_left _ there
  | retires =>
    obtain ⟨record, member, rfl⟩ := List.mem_map.mp there
    refine List.mem_map.mpr ⟨_, List.mem_map_of_mem member, ?_⟩
    split <;> rfl

/-- Every owner of an end has a record, whether the end is open or not. -/
theorem History.owner_recorded (history : History behaviour .confined deeds session) :
    ∀ holding ∈ session.tables.pipes.holdings,
      holding.owner ∈ session.tables.instances.records.map InstanceRecord.id := by
  -- An end that is closed keeps its owner, but an open one is known by those who run.
  suffices both : session.tables.Guarded ∧ ∀ holding ∈ session.tables.pipes.holdings,
      holding.owner ∈ session.tables.instances.records.map InstanceRecord.id from both.2
  refine history.induction (fun _ session => session.tables.Guarded ∧
    ∀ holding ∈ session.tables.pipes.holdings,
      holding.owner ∈ session.tables.instances.records.map InstanceRecord.id) ?_ ?_
  · intro config load keepsEvents tables shared valid
    obtain rfl := new_eq valid
    exact ⟨⟨fun holding there => by simp [ofTables, PipeRegistry.holdings] at there,
      fun pipe there => by simp [ofTables] at there⟩,
      fun holding there => by simp [ofTables, PipeRegistry.holdings] at there⟩
  · intro earlier before next deed steady held step
    obtain ⟨guarded, recorded⟩ := held
    have guardedToo := step.guarded steady guarded
    refine ⟨guardedToo, fun later there => ?_⟩
    cases opened : later.isOpen with
    | true =>
      -- Whoever owns an open end runs.
      obtain ⟨record, member, own⟩ := List.mem_map.mp (guardedToo.owners later there opened)
      exact List.mem_map.mpr ⟨record, (List.mem_filter.mp member).1, own⟩
    | false =>
      -- A closed end was there before, with the same owner.
      obtain ⟨change, same, fates⟩ := step.rearranges steady
      rw [same, List.mem_append] at there
      rcases there with older | new
      · obtain ⟨holding, member, rfl⟩ := List.mem_map.mp older
        apply (step.records steady).recorded
        have owned := recorded holding member
        have fate := fates holding member
        generalize change holding = later at fate opened ⊢
        cases fate with
        | remains | closes => exact owned
        | passes stillOpen => exact absurd (stillOpen.symm.trans opened) (by simp)
      · obtain ⟨created, -, rfl⟩ := List.mem_map.mp new
        simp at opened

end Session

end Progeny
