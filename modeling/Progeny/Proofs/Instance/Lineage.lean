import Progeny.Proofs.Instance.Records

/-! Instances descend from the first one: each was created by another one that was there before. So
what the first instance passes on to its children, and they to theirs, comes to everybody. -/

namespace Progeny.InstanceTable

variable {table after : InstanceTable} {caller : InstanceId}

/-- Everybody but the first instance has a parent with a lesser identity. -/
def Lineage (table : InstanceTable) : Prop :=
  ∀ record ∈ table.records, record.parent = none ∧ record.id = .root ∨
    ∃ parent, record.parent = some parent ∧ parent.word < record.id.word

namespace Lineage

/-- A child continues the lineage of an instance that is there. -/
theorem enlist (lineage : table.Lineage) (indexed : table.Indexed) {parent : InstanceId}
    {record : InstanceRecord} (found : table.find? parent = some record) (depth : UInt32) :
    (table.enlist (some parent) depth).Lineage := by
  intro held member
  simp only [InstanceTable.enlist, List.mem_append, List.mem_singleton] at member
  rcases member with earlier | rfl
  · exact lineage held earlier
  · refine .inr ⟨parent, rfl, ?_⟩
    -- Whoever is there has a lesser identity than the next one.
    rw [indexed.find?_eq] at found
    have inside := (List.getElem?_eq_some_iff.mp found).1
    rw [UInt64.lt_iff_toNat_lt, indexed.next]
    exact inside

/-- The first instance begins a lineage. -/
theorem founds (empty : table.records = []) (first : table.nextId = 0) (depth : UInt32) :
    (table.enlist none depth).Lineage := by
  intro held member
  simp only [InstanceTable.enlist, empty, List.nil_append, List.mem_singleton] at member
  subst member
  exact .inl ⟨rfl, by rw [first]; rfl⟩

/-- Who exits stays where it was. -/
theorem retire (lineage : table.Lineage) (id : InstanceId) (code : Int8)
    (fault : Option String) : (table.retire id code fault).Lineage := by
  intro record member
  obtain ⟨held, earlier, rfl⟩ := List.mem_map.mp member
  have before := lineage held earlier
  split <;> exact before

/-- Nobody descends from the next instance yet. -/
theorem childrenOf_next (lineage : table.Lineage) (indexed : table.Indexed) :
    table.childrenOf ⟨table.nextId⟩ = [] := by
  refine List.eq_nil_iff_forall_not_mem.mpr fun child listed => ?_
  obtain ⟨record, found, own⟩ := indexed.mem_childrenOf.mp listed
  have named := indexed.id_of_find? found
  rw [indexed.find?_eq] at found
  rcases lineage record (List.mem_of_getElem? found) with ⟨none, -⟩ | ⟨parent, some, less⟩
  · simp [none] at own
  · -- Its child would have a greater identity than it has.
    obtain rfl := Option.some.inj (some.symm.trans own)
    have inside := (List.getElem?_eq_some_iff.mp found).1
    rw [UInt64.lt_iff_toNat_lt, indexed.next, named] at less
    omega

/-- What the first instance has, and what everybody passes on to their children, everybody has. -/
theorem inherited (lineage : table.Lineage) (indexed : table.Indexed) {holds : InstanceId → Prop}
    (first : holds .root)
    (passes : ∀ id, holds id → ∀ child ∈ table.childrenOf id, holds child) :
    ∀ record ∈ table.records, holds record.id := by
  -- Parents come before their children.
  intro record member
  generalize position : record.id.word.toNat = number
  induction number using Nat.strongRecOn generalizing record with
  | ind number ih =>
    rcases lineage record member with ⟨-, root⟩ | ⟨parent, own, less⟩
    · rw [root]
      exact first
    · have listed : record.id ∈ table.childrenOf parent :=
        indexed.mem_childrenOf.mpr ⟨record, indexed.find?_of_mem member, own⟩
      rw [UInt64.lt_iff_toNat_lt, position] at less
      obtain ⟨inside, found⟩ := List.getElem?_eq_some_iff.mp
        ((indexed.find?_eq record.id).symm.trans (indexed.find?_of_mem member))
      -- With a lesser identity than somebody who is there, the parent is there as well.
      have before : parent.word.toNat < table.records.length := by omega
      have above := List.getElem?_eq_getElem before
      have named := InstanceId.eq_of_toNat (indexed.ids above)
      have held := ih _ less _ (List.mem_of_getElem? above) (by rw [named])
      rw [named] at held
      exact passes parent held _ listed

end Lineage

/-- A new instance is the last child of its parent, and nobody else's. -/
theorem childrenOf_enlist (table : InstanceTable) (parent : Option InstanceId) (depth : UInt32)
    (id : InstanceId) : (table.enlist parent depth).childrenOf id =
      table.childrenOf id ++ if parent = some id then [⟨table.nextId⟩] else [] := by
  simp only [childrenOf, enlist, List.filter_append, List.map_append]
  by_cases own : parent = some id <;> simp [own]

/-- Who exits stays a child of its parent. -/
@[simp] theorem childrenOf_retire (table : InstanceTable) (id : InstanceId) (code : Int8)
    (fault : Option String) (other : InstanceId) :
    (table.retire id code fault).childrenOf other = table.childrenOf other := by
  simp only [childrenOf, retire, List.filter_map, List.map_map]
  -- Neither what is kept nor what is listed depends on who has exited.
  refine congr (congrArg List.map (funext fun record => ?_)) (List.filter_congr fun record _ => ?_)
  all_goals
    simp only [Function.comp_apply]
    split <;> rfl

/-- What somebody does takes back no exit code, and leaves everybody else with the same code, the
same record, and the same children. -/
structure Spared (caller : InstanceId) (table after : InstanceTable) : Prop where
  exitCode : ∀ {id : InstanceId} {code : Int8},
    table.exitCode id = some code → after.exitCode id = some code
  others : ∀ {id : InstanceId}, id ≠ caller → after.exitCode id = table.exitCode id
  found : ∀ {id : InstanceId} {record : InstanceRecord}, id ≠ caller →
    table.find? id = some record → after.find? id = some record
  children : ∀ {id : InstanceId}, id ≠ caller → after.childrenOf id = table.childrenOf id

namespace Spared

theorem refl (caller : InstanceId) (table : InstanceTable) : Spared caller table table :=
  ⟨id, fun _ => rfl, fun _ => id, fun _ => rfl⟩

theorem trans {middle : InstanceTable} (first : Spared caller table middle)
    (second : Spared caller middle after) : Spared caller table after :=
  ⟨fun exited => second.exitCode (first.exitCode exited),
    fun differ => (second.others differ).trans (first.others differ),
    fun differ found => second.found differ (first.found differ found),
    fun differ => (second.children differ).trans (first.children differ)⟩

/-- Somebody gets a child. -/
theorem enlist (indexed : table.Indexed) (named : table.nextId + 1 ≠ 0) (caller : InstanceId)
    (depth : UInt32) : Spared caller table (table.enlist (some caller) depth) := by
  -- Nobody has exited under the next identity, neither before nor after.
  have same (id : InstanceId) :
      (table.enlist (some caller) depth).exitCode id = table.exitCode id := by
    unfold InstanceTable.exitCode
    rw [indexed.find?_enlist named]
    split
    · rename_i next
      rw [next, indexed.find?_eq, indexed.next]
      simp [Lifecycle.exitCode]
    · rfl
  refine ⟨fun exited => (same _).trans exited, fun _ => same _,
    fun _ found => indexed.find?_enlist_of_some named _ _ found, fun {id} differ => ?_⟩
  rw [childrenOf_enlist, if_neg (by simpa using differ.symm), List.append_nil]

/-- Somebody exits who runs. -/
theorem retire (indexed : table.Indexed) (running : caller ∈ table.running) (code : Int8)
    (fault : Option String) : Spared caller table (table.retire caller code fault) := by
  -- Only the record of the one who exits is changed.
  have found {id : InstanceId} (differ : id ≠ caller) :
      (table.retire caller code fault).find? id = table.find? id := by
    rw [indexed.find?_retire]
    cases table.find? id with
    | none => rfl
    | some record => rw [Option.map_some, if_neg differ]
  have others {id : InstanceId} (differ : id ≠ caller) :
      (table.retire caller code fault).exitCode id = table.exitCode id := by
    rw [InstanceTable.exitCode, found differ]
    rfl
  refine ⟨fun {id before} exited => ?_, others, fun differ there => (found differ).trans there,
    fun _ => childrenOf_retire ..⟩
  -- Whoever has an exit code does not run, and so it is somebody else.
  have differ : id ≠ caller := by
    rintro rfl
    exact indexed.notMem_running exited running
  rw [others differ, exited]

end Spared

end Progeny.InstanceTable
