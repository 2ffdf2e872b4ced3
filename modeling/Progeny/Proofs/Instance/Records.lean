import Progeny.Instance.Table

/-! Records are numbered in the order of their creation, and they change only from running to
exited. -/

namespace Progeny

/-- Identities with the same number are the same. -/
theorem InstanceId.eq_of_toNat {one other : InstanceId}
    (same : one.word.toNat = other.word.toNat) : one = other := by
  cases one
  cases other
  exact congrArg InstanceId.mk (UInt64.toNat_inj.mp same)

/-- A generation that does not wrap around is one below. -/
theorem InstanceRecord.toNat_deeper {record : InstanceRecord} (deepens : record.depth + 1 ≠ 0) :
    (record.depth + 1).toNat = record.depth.toNat + 1 := by
  have bound := record.depth.toNat_lt
  rw [Ne, ← UInt32.toNat_inj] at deepens
  simp only [UInt32.toNat_add, UInt32.reduceToNat, UInt32.toNat_zero] at deepens ⊢
  omega

/-- A generation is within a limit exactly if the one above it is short of the limit. -/
theorem InstanceRecord.deeper_le_iff {record : InstanceRecord} (deepens : record.depth + 1 ≠ 0)
    (limit : UInt32) : record.depth + 1 ≤ limit ↔ record.depth < limit := by
  rw [UInt32.le_iff_toNat_le, UInt32.lt_iff_toNat_lt, toNat_deeper deepens]
  omega

namespace InstanceTable

/-- The identity of a record is its position, and the next identity is the next position. -/
structure Indexed (table : InstanceTable) : Prop where
  next : table.nextId.toNat = table.records.length
  ids : ∀ {position : Nat} {record : InstanceRecord},
    table.records[position]? = some record → record.id.word.toNat = position

/-- The instances that have not exited, in the order of their creation. -/
def running (table : InstanceTable) : List InstanceId :=
  (table.records.filter fun record => !record.state.isExited).map InstanceRecord.id

/-- The table with a new record at its end. -/
def enlist (table : InstanceTable) (parent : Option InstanceId) (depth : UInt32) : InstanceTable :=
  { table with
    nextId := table.nextId + 1
    records := table.records ++ [⟨⟨table.nextId⟩, parent, depth, .running, none⟩] }

/-- The table with an instance recorded as exited. -/
def retire (table : InstanceTable) (id : InstanceId) (code : Int8) (fault : Option String) :
    InstanceTable :=
  { table with records := table.records.map fun held =>
      if held.id = id then { held with state := .exited code, fault := fault } else held }

/-- What an attempt to create a child can come to. -/
inductive AllocateCase (table : InstanceTable) (parent : InstanceId) :
    Except AllocateError (InstanceId × InstanceTable) → Prop where
  | denied {error : CallError}
      (reason : table.find? parent = none ∨ table.maxInstances.toNat ≤ table.running.length ∨
        ∃ record, table.find? parent = some record ∧
          (table.maxDepth < record.depth + 1 ∨ table.nextId + 1 = 0)) :
    AllocateCase table parent (.error (.denied error))
  | creates {record : InstanceRecord} (found : table.find? parent = some record)
      (vacancy : table.running.length < table.maxInstances.toNat)
      (shallow : record.depth + 1 ≤ table.maxDepth) (named : table.nextId + 1 ≠ 0) :
    AllocateCase table parent
      (.ok (⟨table.nextId⟩, table.enlist (some parent) (record.depth + 1)))

variable {table : InstanceTable}

/-- The number of running instances is the length of their list. -/
theorem runningCount_eq (table : InstanceTable) : table.runningCount = table.running.length := by
  simp [runningCount, running, List.countP_eq_length_filter]

namespace Indexed

variable (indexed : table.Indexed)
include indexed

/-- The record of an instance stands at its position. -/
theorem find?_eq (id : InstanceId) : table.find? id = table.records[id.word.toNat]? := by
  unfold find?
  cases there : table.records[id.word.toNat]? with
  | none =>
    -- A record of that identity would stand at that position.
    rw [List.find?_eq_none]
    intro record member
    obtain ⟨position, found⟩ := List.mem_iff_getElem?.mp member
    have same := indexed.ids found
    simp only [decide_eq_true_eq]
    rintro rfl
    rw [same, found] at there
    simp at there
  | some record =>
    obtain ⟨inside, found⟩ := List.getElem?_eq_some_iff.mp there
    rw [List.find?_eq_some_iff_getElem]
    have own := InstanceId.eq_of_toNat (indexed.ids there)
    refine ⟨by simpa using own, id.word.toNat, inside, found, fun before earlier => ?_⟩
    have number := indexed.ids (List.getElem?_eq_getElem (Nat.lt_trans earlier inside))
    simp only [Bool.not_eq_eq_eq_not, Bool.not_true, decide_eq_false_iff_not]
    intro same
    rw [same] at number
    omega

/-- No two records have the same identity. -/
theorem nodup_ids : (table.records.map InstanceRecord.id).Nodup := by
  -- An identity is the position of its record.
  unfold List.Nodup
  rw [List.pairwise_map, List.pairwise_iff_getElem]
  intro one other inside insideToo before same
  have first := indexed.ids (List.getElem?_eq_getElem inside)
  have second := indexed.ids (List.getElem?_eq_getElem insideToo)
  rw [same] at first
  omega

/-- The identities are the numbers from zero on. -/
theorem numbers : table.records.map (fun record => record.id.word.toNat) =
    List.range table.records.length := by
  apply List.ext_getElem
  · simp
  · intro position inside _
    rw [List.getElem_map, List.getElem_range]
    exact indexed.ids (List.getElem?_eq_getElem (by simpa using inside))

/-- The next identity is none of a record. -/
theorem next_notMem : ⟨table.nextId⟩ ∉ table.records.map InstanceRecord.id := by
  intro member
  obtain ⟨record, there, same⟩ := List.mem_map.mp member
  obtain ⟨position, found⟩ := List.mem_iff_getElem?.mp there
  have number := indexed.ids found
  have inside := (List.getElem?_eq_some_iff.mp found).1
  have next := indexed.next
  rw [same] at number
  simp only at number
  omega

/-- A record that is found bears the identity it was looked for. -/
theorem id_of_find? {id : InstanceId} {record : InstanceRecord}
    (found : table.find? id = some record) : record.id = id := by
  rw [indexed.find?_eq] at found
  exact InstanceId.eq_of_toNat (indexed.ids found)

/-- A record is found under its identity. -/
theorem find?_of_mem {record : InstanceRecord} (member : record ∈ table.records) :
    table.find? record.id = some record := by
  obtain ⟨position, there⟩ := List.mem_iff_getElem?.mp member
  rw [indexed.find?_eq, indexed.ids there, there]

/-- An instance is among the running ones exactly if its record says so. -/
theorem mem_running {id : InstanceId} :
    id ∈ table.running ↔ ∃ record, table.find? id = some record ∧ record.state = .running := by
  -- Identities and records correspond, so a listed identity leads to its one record.
  simp only [running, List.mem_map, List.mem_filter]
  constructor
  · rintro ⟨record, ⟨member, unexited⟩, rfl⟩
    refine ⟨record, indexed.find?_of_mem member, ?_⟩
    cases state : record.state <;> simp_all [Lifecycle.isExited]
  · rintro ⟨record, found, state⟩
    have own := indexed.id_of_find? found
    rw [indexed.find?_eq] at found
    exact ⟨record, ⟨List.mem_of_getElem? found, by simp [state, Lifecycle.isExited]⟩, own⟩

/-- Some of the instances, in the order of their creation, have ascending identities. -/
theorem sorted_filter (keep : InstanceRecord → Bool) :
    ((table.records.filter keep).map InstanceRecord.id).Pairwise
      fun one other => one.word < other.word := by
  -- Identities grow with their positions, and a filter keeps the order.
  rw [List.pairwise_map]
  refine List.Pairwise.filter _ ?_
  rw [List.pairwise_iff_getElem]
  intro one other _ _ before
  rw [UInt64.lt_iff_toNat_lt, indexed.ids (List.getElem?_eq_getElem _),
    indexed.ids (List.getElem?_eq_getElem _)]
  exact before

/-- The running instances are listed in ascending order. -/
theorem running_sorted : table.running.Pairwise fun one other => one.word < other.word :=
  indexed.sorted_filter _

/-- The children of an instance are those whose records name it as their parent. -/
theorem mem_childrenOf {parent child : InstanceId} : child ∈ table.childrenOf parent ↔
    ∃ record, table.find? child = some record ∧ record.parent = some parent := by
  simp only [childrenOf, List.mem_map, List.mem_filter, decide_eq_true_eq]
  constructor
  · rintro ⟨record, ⟨member, own⟩, rfl⟩
    exact ⟨record, indexed.find?_of_mem member, own⟩
  · rintro ⟨record, found, own⟩
    have named := indexed.id_of_find? found
    rw [indexed.find?_eq] at found
    exact ⟨record, ⟨List.mem_of_getElem? found, own⟩, named⟩

/-- The children of an instance are listed in ascending order. -/
theorem childrenOf_sorted (parent : InstanceId) :
    (table.childrenOf parent).Pairwise fun one other => one.word < other.word :=
  indexed.sorted_filter _

/-- A new record continues the numbering. -/
theorem enlist (named : table.nextId + 1 ≠ 0) (parent : Option InstanceId) (depth : UInt32) :
    (table.enlist parent depth).Indexed where
  next := by
    have bound := table.nextId.toNat_lt
    have next := indexed.next
    rw [Ne, ← UInt64.toNat_inj] at named
    simp only [InstanceTable.enlist, List.length_append, List.length_singleton, UInt64.toNat_add,
      UInt64.reduceToNat, UInt64.toNat_zero] at named ⊢
    omega
  ids := by
    intro position record found
    simp only [InstanceTable.enlist, List.getElem?_append] at found
    split at found
    · exact indexed.ids found
    · rename_i beyond
      -- The only position beyond the older records is the first one.
      have last : position = table.records.length := by
        have := (List.getElem?_eq_some_iff.mp found).1
        simp only [List.length_singleton] at this
        omega
      subst last
      simp only [Nat.sub_self, List.getElem?_cons_zero, Option.some.injEq] at found
      subst found
      exact indexed.next

/-- The end of an instance keeps the numbering. -/
theorem retire (id : InstanceId) (code : Int8) (fault : Option String) :
    (table.retire id code fault).Indexed where
  -- No identity changes, and none is added.
  next := by simpa [InstanceTable.retire] using indexed.next
  ids := by
    intro position record found
    simp only [InstanceTable.retire, List.getElem?_map, Option.map_eq_some_iff] at found
    obtain ⟨held, there, rfl⟩ := found
    have number := indexed.ids there
    split <;> exact number

/-- A new record is found, and so are all older ones. -/
theorem find?_enlist (named : table.nextId + 1 ≠ 0) (parent : Option InstanceId)
    (depth : UInt32) (id : InstanceId) :
    (table.enlist parent depth).find? id =
      if id = ⟨table.nextId⟩ then some ⟨id, parent, depth, .running, none⟩
      else table.find? id := by
  -- The new record stands just past all others, where the next identity points.
  rw [(indexed.enlist named parent depth).find?_eq, indexed.find?_eq]
  simp only [InstanceTable.enlist]
  split
  · rename_i new
    subst new
    simp [indexed.next]
  · rename_i older
    rw [List.getElem?_append]
    split
    · rfl
    · rename_i beyond
      have differ : id.word.toNat ≠ table.records.length := by
        rw [← indexed.next]
        exact fun same => older (InstanceId.eq_of_toNat same)
      rw [List.getElem?_eq_none (by simp; omega), List.getElem?_eq_none (by omega)]

/-- A new record leaves the older ones to be found. -/
theorem find?_enlist_of_some (named : table.nextId + 1 ≠ 0) (parent : Option InstanceId)
    (depth : UInt32) {id : InstanceId} {record : InstanceRecord}
    (found : table.find? id = some record) :
    (table.enlist parent depth).find? id = some record := by
  rw [indexed.find?_enlist named parent depth, if_neg]
  · exact found
  · -- Nothing is recorded yet under the next identity.
    rintro rfl
    rw [indexed.find?_eq, indexed.next] at found
    simp at found

/-- Only the record of the instance that ended is changed. -/
theorem find?_retire (id : InstanceId) (code : Int8) (fault : Option String)
    (other : InstanceId) :
    (table.retire id code fault).find? other =
      (table.find? other).map fun held =>
        if other = id then { held with state := .exited code, fault := fault } else held := by
  -- A position keeps its identity, and only the record with that identity changes.
  rw [(indexed.retire id code fault).find?_eq, indexed.find?_eq]
  simp only [InstanceTable.retire, List.getElem?_map]
  cases found : table.records[other.word.toNat]? with
  | none => rfl
  | some record => simp [InstanceId.eq_of_toNat (indexed.ids found)]

/-- Before any record the numbering begins. -/
theorem next_eq_zero (empty : table.records = []) : table.nextId = 0 := by
  have next := indexed.next
  rw [empty] at next
  exact UInt64.toNat_inj.mp next

/-- A table without records takes the first instance. -/
theorem allocateRoot_ok (empty : table.records = []) :
    table.allocateRoot = .ok (.root, table.enlist none 0) := by
  simp [allocateRoot, InstanceTable.enlist, empty, indexed.next_eq_zero empty, InstanceId.root]

/-- The table has room for a child, or the reason is told. -/
theorem allocate_case (parent : InstanceId) :
    AllocateCase table parent (table.allocate parent) := by
  unfold allocate
  cases found : table.find? parent with
  | none => exact .denied (.inl found)
  | some record =>
    dsimp only
    rw [runningCount_eq]
    split
    · rename_i crowded
      exact .denied (.inr (.inl crowded))
    rename_i vacancy
    split
    · rename_i deep
      exact .denied (.inr (.inr ⟨record, found, .inl deep⟩))
    rename_i shallow
    split
    · rename_i spent
      exact .denied (.inr (.inr ⟨record, found, .inr spent⟩))
    rename_i named
    -- The next identity is beyond all records.
    have fresh : table.find? ⟨table.nextId⟩ = none := by
      rw [indexed.find?_eq, indexed.next]
      exact List.getElem?_eq_none (Nat.le_refl _)
    rw [fresh]
    exact .creates found (by omega) (UInt32.not_lt.mp shallow) named

/-- A parent with room for a child gets one. -/
theorem allocate_ok {parent : InstanceId} {record : InstanceRecord}
    (found : table.find? parent = some record)
    (vacancy : table.running.length < table.maxInstances.toNat)
    (shallow : record.depth + 1 ≤ table.maxDepth) (named : table.nextId + 1 ≠ 0) :
    table.allocate parent =
      .ok (⟨table.nextId⟩, table.enlist (some parent) (record.depth + 1)) := by
  -- Of the reasons to deny, none is left.
  have outcome := indexed.allocate_case parent
  generalize table.allocate parent = result at outcome
  cases outcome with
  | denied reason =>
    rcases reason with missing | crowded | ⟨other, same, deep | spent⟩
    · simp [found] at missing
    · omega
    · obtain rfl := Option.some.inj (found.symm.trans same)
      exact absurd shallow (UInt32.not_le.mpr deep)
    · exact absurd spent named
  | creates same =>
    obtain rfl := Option.some.inj (found.symm.trans same)
    rfl

end Indexed

/-- An unknown parent is refused by its identity. -/
theorem allocate_of_unknown {parent : InstanceId} (unknown : table.find? parent = none) :
    table.allocate parent = .error (.denied (.invalidInstance parent)) := by
  simp [allocate, unknown]

/-- A parent is refused once as many instances run as the budget allows. -/
theorem allocate_of_crowded {parent : InstanceId} {record : InstanceRecord}
    (found : table.find? parent = some record)
    (crowded : table.maxInstances.toNat ≤ table.runningCount) :
    table.allocate parent = .error (.denied (.exhausted .instances table.maxInstances)) := by
  simp [allocate, found, crowded]

/-- A parent in the deepest generation is refused. -/
theorem allocate_of_deep {parent : InstanceId} {record : InstanceRecord}
    (found : table.find? parent = some record)
    (vacancy : table.runningCount < table.maxInstances.toNat)
    (deep : table.maxDepth < record.depth + 1) :
    table.allocate parent = .error (.denied (.exhausted .depth table.maxDepth.toUInt64)) := by
  simp [allocate, found, Nat.not_le.mpr vacancy, deep]

/-- A table without records is numbered from zero. -/
theorem indexed_of_empty (empty : table.records = []) (first : table.nextId = 0) :
    table.Indexed where
  next := by simp [empty, first]
  ids := by simp [empty]

/-- A new instance is the last of the running ones. -/
theorem running_enlist (parent : Option InstanceId) (depth : UInt32) :
    (table.enlist parent depth).running = table.running ++ [⟨table.nextId⟩] := by
  simp [running, enlist, List.filter_append, Lifecycle.isExited]

/-- An instance that ended is no longer among the running ones. -/
theorem running_retire (id : InstanceId) (code : Int8) (fault : Option String) :
    (table.retire id code fault).running = table.running.filter (· ≠ id) := by
  -- Record by record, the one that retires is dropped and the others stay as they were.
  unfold running retire
  dsimp only
  induction table.records with
  | nil => rfl
  | cons record rest ih =>
    simp only [List.map_cons, List.filter_cons]
    by_cases same : record.id = id
    · cases exited : record.state.isExited <;> simp_all [Lifecycle.isExited]
    · cases exited : record.state.isExited <;> simp_all [Lifecycle.isExited]

/-- The end of a running instance is recorded. -/
theorem markExited_of_running {id : InstanceId} {record : InstanceRecord}
    (found : table.find? id = some record) (state : record.state = .running) (code : Int8)
    (fault : Option String) :
    table.markExited id code fault = .ok (table.retire id code fault) := by
  simp [markExited, found, state, Lifecycle.isExited, retire]

/-- There is no exit code as long as no record holds one. -/
theorem exitCode_eq_none {id : InstanceId} :
    table.exitCode id = none ↔
      ∀ record, table.find? id = some record → record.state = .running := by
  -- An exit code is what the stage of a record holds.
  unfold exitCode
  cases found : table.find? id with
  | none => simp
  | some record => cases state : record.state <;> simp [state, Lifecycle.exitCode]

/-- Whoever is new has no exit code, and all others keep theirs. -/
theorem Indexed.exitCode_enlist (indexed : table.Indexed) (named : table.nextId + 1 ≠ 0)
    (parent : Option InstanceId) (depth : UInt32) (id : InstanceId) :
    (table.enlist parent depth).exitCode id = table.exitCode id := by
  unfold exitCode
  cases found : table.find? id with
  | some record => rw [indexed.find?_enlist_of_some named parent depth found]
  | none =>
    rw [indexed.find?_enlist named, found]
    split <;> rfl

/-- Whoever has exited does not run. -/
theorem Indexed.notMem_running (indexed : table.Indexed) {id : InstanceId} {code : Int8}
    (exited : table.exitCode id = some code) : id ∉ table.running := by
  intro running
  obtain ⟨record, found, state⟩ := indexed.mem_running.mp running
  simp [exitCode, found, state, Lifecycle.exitCode] at exited

end InstanceTable

end Progeny
