import Progeny.Proofs.Workload.Breadth
import Progeny.Proofs.Workload.Draws
import Progeny.Proofs.Workload.Opening

/-! The shape of generated workloads: a tree that is spawned generation after generation, and few
writes of limited size that form no cycle. -/

namespace Progeny.Workload

/-- Some write leads from one instance to another. -/
def Writes (workload : Workload) (writer reader : UInt64) : Prop :=
  ∃ plan ∈ workload.writes, plan.writer = writer ∧ plan.reader = reader

/-- A workload has a number of spawns below its first instance, breadth first, and at most a number
of writes without a cycle. -/
structure WellFormed (workload : Workload) (spawns writes : Nat) : Prop where
  /-- The instances from one on are spawned, each once. -/
  children : (workload.spawns.map fun plan => plan.child.toNat).Perm (List.range' 1 spawns)
  /-- A parent has a lesser number than its child, and it is the first instance or was spawned
  before. -/
  parents : ∀ earlier plan later, workload.spawns = earlier ++ plan :: later →
    plan.parent < plan.child ∧ (plan.parent = 0 ∨ plan.parent ∈ earlier.map SpawnPlan.child)
  /-- Every instance that is spawned belongs to one generation. -/
  generations : ∀ plan ∈ workload.spawns, ∃! depth, workload.Generation plan.child depth
  /-- No instance is spawned after one of a later generation. -/
  deeper : workload.spawns.Pairwise fun one other => ∀ depth further,
    workload.Generation one.child depth → workload.Generation other.child further →
      depth ≤ further
  /-- Children of one parent are spawned one right after another. -/
  together : ∀ one between other, [one, between, other].Sublist workload.spawns →
    one.parent = other.parent → between.parent = one.parent
  /-- They are spawned in ascending order. -/
  ascending : workload.spawns.Pairwise fun one other =>
    one.parent = other.parent → one.child < other.child
  /-- Children of different parents are spawned in the order of these. -/
  queued : workload.spawns.Pairwise fun one other => one.parent = other.parent ∨
    [one.parent, other.parent].Sublist (0 :: workload.spawns.map SpawnPlan.child)
  few : workload.writes.length ≤ writes
  /-- A single instance has nobody to write to. -/
  alone : spawns = 0 → workload.writes = []
  ends : ∀ plan ∈ workload.writes,
    plan.writer.toNat ≤ spawns ∧ plan.reader.toNat ≤ spawns ∧ plan.writer ≠ plan.reader
  payloads : ∀ plan ∈ workload.writes, 1 ≤ plan.data.length ∧ plan.data.length ≤ 1024
  /-- No instance is reached from itself by one or more writes. -/
  acyclic : ∀ index, ¬Relation.TransGen workload.Writes index index

section Suits

variable {tree : SpawnTree} {sent : List Transmission} (suits : tree.Suits sent)

/-- The plan to spawn a node below its parent. -/
def spawnOf (tree : SpawnTree) (sent : List Transmission) (child : Nat) : SpawnPlan :=
  spawnPlan tree sent ((tree.parent? child).getD 0) child

/-- The plans to spawn some nodes name these nodes, in their order. -/
theorem children_of_map (tree : SpawnTree) (sent : List Transmission) (nodes : List Nat) :
    (nodes.map (spawnOf tree sent)).map SpawnPlan.child = nodes.map UInt64.ofNat := by
  rw [List.map_map]
  rfl

include suits

/-- Every node but the first is spawned, breadth first. -/
theorem spawns_eq_map : (ofTransmissions tree sent).spawns =
    tree.breadthFirst.map (spawnOf tree sent) := by
  -- Every node that is listed has a parent.
  rw [← List.filterMap_eq_map]
  refine List.filterMap_congr fun child member => ?_
  have range := ((SpawnTree.mem_breadthFirst suits.grown).2 child).mp member
  obtain ⟨parent, under⟩ := SpawnTree.exists_parent? range.1 range.2
  simp [spawnOf, under, spawnPlan, handed, handovers]

/-- A node that is listed is small, and its parent is less. -/
theorem listed {child : Nat} (member : child ∈ tree.breadthFirst) :
    ∃ parent, tree.parent? child = some parent ∧ parent < child ∧ child < tree.size ∧
      child < 2 ^ 64 ∧ spawnOf tree sent child = spawnPlan tree sent parent child := by
  have small := suits.small
  have range := ((SpawnTree.mem_breadthFirst suits.grown).2 child).mp member
  obtain ⟨parent, under⟩ := SpawnTree.exists_parent? range.1 range.2
  exact ⟨parent, under, suits.grown child parent under, range.2, by omega, by simp [spawnOf, under]⟩

/-- The instances that are spawned are numbered from one on. -/
theorem perm_children : ((ofTransmissions tree sent).spawns.map fun plan =>
    plan.child.toNat).Perm (List.range' 1 (tree.size - 1)) := by
  obtain ⟨once, members⟩ := SpawnTree.mem_breadthFirst suits.grown
  have same : ((ofTransmissions tree sent).spawns.map fun plan => plan.child.toNat) =
      tree.breadthFirst := by
    rw [spawns_eq_map suits, List.map_map]
    refine (List.map_congr_left fun child member => ?_).trans (List.map_id _)
    obtain ⟨-, -, -, -, small, -⟩ := listed suits member
    exact UInt64.toNat_ofNat_of_lt' small
  rw [same, List.perm_ext_iff_of_nodup once List.nodup_range']
  intro node
  rw [members, List.mem_range'_1]
  omega

/-- Parents are spawned before their children. -/
theorem parent_spawned {earlier later : List SpawnPlan} {plan : SpawnPlan}
    (order : (ofTransmissions tree sent).spawns = earlier ++ plan :: later) :
    plan.parent < plan.child ∧ (plan.parent = 0 ∨ plan.parent ∈ earlier.map SpawnPlan.child) := by
  rw [spawns_eq_map suits] at order
  -- The plans before this one are those of the nodes listed before its child.
  obtain ⟨before, after, split, rfl, rest⟩ := List.map_eq_append_iff.mp order
  obtain ⟨child, behind, rfl, rfl, -⟩ := List.map_eq_cons_iff.mp rest
  obtain ⟨parent, under, less, -, small, same⟩ := listed suits
    (split ▸ List.mem_append_right _ List.mem_cons_self)
  rw [same, children_of_map]
  constructor
  · rw [UInt64.lt_iff_toNat_lt]
    show (UInt64.ofNat parent).toNat < (UInt64.ofNat child).toNat
    rwa [UInt64.toNat_ofNat_of_lt' small, UInt64.toNat_ofNat_of_lt' (Nat.lt_trans less small)]
  · rcases SpawnTree.parent_before suits.grown split under with rfl | listed
    · exact .inl rfl
    · exact .inr (List.mem_map_of_mem listed)

/-- The generation of an instance that is spawned is the depth of its node. -/
theorem generation_spawnOf {child : Nat} (member : child ∈ tree.breadthFirst) {depth : Nat} :
    (ofTransmissions tree sent).Generation (spawnOf tree sent child).child depth ↔
      depth = tree.depth child := by
  have small := suits.small
  obtain ⟨-, -, -, inside, -, -⟩ := listed suits member
  constructor
  · intro generation
    obtain ⟨node, within, same, rfl⟩ := (generation_iff suits).mp generation
    obtain rfl := (ofNat_inj (by omega) (by omega)).mp same
    rfl
  · rintro rfl
    exact (generation_iff suits).mpr ⟨child, inside, rfl, rfl⟩

/-- Instances are spawned one generation after another. -/
theorem spawns_deeper : (ofTransmissions tree sent).spawns.Pairwise fun one other =>
    ∀ depth further, (ofTransmissions tree sent).Generation one.child depth →
      (ofTransmissions tree sent).Generation other.child further → depth ≤ further := by
  have sorted := SpawnTree.breadthFirst_sorted suits.grown
  rw [spawns_eq_map suits, List.pairwise_map]
  refine sorted.imp_of_mem fun {one other} here there level depth further upper lower => ?_
  obtain rfl := (generation_spawnOf suits here).mp upper
  obtain rfl := (generation_spawnOf suits there).mp lower
  exact level

/-- Children of one parent are spawned in ascending order, and those of different parents in the
order of these. -/
theorem spawns_queued : (ofTransmissions tree sent).spawns.Pairwise fun one other =>
    (one.parent = other.parent ∧ one.child < other.child) ∨
      (one.parent ≠ other.parent ∧ [one.parent, other.parent].Sublist
        (0 :: (ofTransmissions tree sent).spawns.map SpawnPlan.child)) := by
  have queued := SpawnTree.breadthFirst_queued suits.grown
  rw [spawns_eq_map suits, List.pairwise_map, children_of_map]
  refine queued.imp_of_mem fun {one other} here there order => ?_
  obtain ⟨upper, above, less, -, small, same⟩ := listed suits here
  obtain ⟨lower, aboveToo, lessToo, -, smallToo, sameToo⟩ := listed suits there
  have upperSmall := Nat.lt_trans less small
  have lowerSmall := Nat.lt_trans lessToo smallToo
  rw [same, sameToo]
  -- Words of small numbers are told apart and ordered as the numbers are.
  rcases order upper lower above aboveToo with ⟨rfl, before⟩ | ⟨differ, order⟩
  · refine .inl ⟨rfl, UInt64.lt_iff_toNat_lt.mpr ?_⟩
    show (UInt64.ofNat one).toNat < (UInt64.ofNat other).toNat
    rwa [UInt64.toNat_ofNat_of_lt' small, UInt64.toNat_ofNat_of_lt' smallToo]
  · exact .inr ⟨fun equal => differ ((ofNat_inj upperSmall lowerSmall).mp equal),
      order.map UInt64.ofNat⟩

/-- No instance is spawned twice, nor is the first one. -/
theorem nodup_instances :
    (0 :: (ofTransmissions tree sent).spawns.map SpawnPlan.child).Nodup := by
  have once := SpawnTree.nodup_zero_breadthFirst suits.grown
  have same : 0 :: (ofTransmissions tree sent).spawns.map SpawnPlan.child =
      (0 :: tree.breadthFirst).map UInt64.ofNat := by
    rw [spawns_eq_map suits, children_of_map]
    rfl
  rw [same]
  have small {node : Nat} (member : node ∈ 0 :: tree.breadthFirst) : node < 2 ^ 64 := by
    rcases List.mem_cons.mp member with rfl | member
    · decide
    · obtain ⟨-, -, -, -, small, -⟩ := listed suits member
      exact small
  exact once.map_on fun one here other there equal =>
    (ofNat_inj (small here) (small there)).mp equal

/-- Children of one parent are spawned one right after another. -/
theorem spawns_together {one between other : SpawnPlan}
    (order : [one, between, other].Sublist (ofTransmissions tree sent).spawns)
    (siblings : one.parent = other.parent) : between.parent = one.parent := by
  have sooner : [one, between].Sublist [one, between, other] := by simp
  have later : [between, other].Sublist [one, between, other] := by simp
  have left := List.pairwise_iff_forall_sublist.mp (spawns_queued suits) (sooner.trans order)
  have right := List.pairwise_iff_forall_sublist.mp (spawns_queued suits) (later.trans order)
  -- Otherwise the two parents would stand in both orders.
  rcases left with ⟨same, -⟩ | ⟨-, before⟩
  · exact same.symm
  · rcases right with ⟨same, -⟩ | ⟨-, after⟩
    · exact same.trans siblings.symm
    · exact absurd (siblings ▸ after) (not_sublist_of_nodup (nodup_instances suits) before)

/-- A write leads between the instances of the nodes of its transmission. -/
theorem toNat_ends {transmission : Transmission} (member : transmission ∈ sent) (number : Nat) :
    (transmission.writePlan number).writer.toNat = transmission.writer ∧
      (transmission.writePlan number).reader.toNat = transmission.reader := by
  have small := suits.small
  obtain ⟨writer, reader⟩ := ends_lt suits member
  have writerSmall : transmission.writer < 2 ^ 64 := by omega
  have readerSmall : transmission.reader < 2 ^ 64 := by omega
  exact ⟨UInt64.toNat_ofNat_of_lt' writerSmall, UInt64.toNat_ofNat_of_lt' readerSmall⟩

/-- The writes of instances are the edges of the transmissions. -/
theorem links_of_writes {writer reader : UInt64}
    (writes : (ofTransmissions tree sent).Writes writer reader) :
    Edges.Links (sent.map fun transmission => (transmission.writer, transmission.reader))
      writer.toNat reader.toNat := by
  obtain ⟨plan, member, rfl, rfl⟩ := writes
  obtain ⟨number, inside, rfl⟩ := List.mem_mapIdx.mp member
  have here := List.getElem_mem inside
  rw [(toNat_ends suits here number).1, (toNat_ends suits here number).2]
  exact List.mem_map_of_mem here

end Suits

/-- Every generated workload has the shape that was asked for. Its instances are spawned breadth
first, each once and by an instance that exists, and there are no more writes than asked for, each
from one instance to another with a payload of limited size, and without a cycle. -/
theorem generated_wellFormed {fuel : Nat} {seed : UInt64} {spawns writes attempts : UInt32}
    {workload : Workload}
    (generated : generate fuel seed spawns writes attempts = some workload) :
    workload.WellFormed spawns.toNat writes.toNat := by
  obtain ⟨tree, sent, rfl, drawn⟩ := drawn_of_generate generated
  have suits := drawn.suits
  have size := drawn.size
  have queued := spawns_queued suits
  have written (plan : WritePlan) (member : plan ∈ (ofTransmissions tree sent).writes) :
      ∃ transmission ∈ sent, ∃ number, plan = transmission.writePlan number := by
    obtain ⟨number, inside, rfl⟩ := List.mem_mapIdx.mp member
    exact ⟨sent[number], List.getElem_mem inside, number, rfl⟩
  refine ⟨?_, fun _ _ _ => parent_spawned suits, ?_, spawns_deeper suits,
    fun _ _ _ => spawns_together suits, ?_, ?_, ?_, ?_, ?_, ?_, ?_⟩
  · -- There is one node more than there are spawns.
    have perm := perm_children suits
    rwa [size, Nat.add_sub_cancel] at perm
  · -- The one generation of an instance is the depth of its node.
    intro plan member
    rw [spawns_eq_map suits] at member
    obtain ⟨child, listed, rfl⟩ := List.mem_map.mp member
    exact ⟨tree.depth child, (generation_spawnOf suits listed).mpr rfl,
      fun depth generation => (generation_spawnOf suits listed).mp generation⟩
  · -- Siblings stand in ascending order, and all others in the order of their parents.
    refine queued.imp fun {one other} order same => ?_
    exact (order.resolve_right fun apart => apart.1 same).2
  · exact queued.imp fun {one other} order => order.imp And.left And.right
  · simpa [ofTransmissions] using drawn.few
  · intro alone
    -- Both ends of a write would be the only node.
    suffices none : sent = [] by simp [none, ofTransmissions]
    refine List.eq_nil_iff_forall_not_mem.mpr fun transmission member => ?_
    obtain ⟨writer, reader⟩ := ends_lt suits member
    exact suits.apart _ member (by omega)
  · -- The two ends of a write are different nodes of the tree.
    intro plan member
    obtain ⟨transmission, here, number, rfl⟩ := written plan member
    obtain ⟨writer, reader⟩ := ends_lt suits here
    obtain ⟨toWriter, toReader⟩ := toNat_ends suits here number
    rw [← UInt64.toNat_inj.ne, toWriter, toReader]
    exact ⟨by omega, by omega, suits.apart _ here⟩
  · intro plan member
    obtain ⟨transmission, here, number, rfl⟩ := written plan member
    exact drawn.payloads transmission here
  · -- A cycle of instances would be one of the edges that were drawn.
    intro index cycle
    exact drawn.acyclic index.toNat
      (cycle.lift UInt64.toNat fun writer reader writes => links_of_writes suits writes)

/-- Two of three instances below the first one are its children, and the greater of them is spawned
before the child of the lesser. -/
theorem generated_wellFormed_of_cousins : ∃ workload, generate 9 879 3 2 3 = some workload ∧
    workload.spawns.map (fun plan => (plan.parent, plan.child)) = [(0, 1), (0, 3), (1, 2)] ∧
    workload.writes.length = 2 ∧ workload.WellFormed 3 2 := by
  obtain ⟨workload, generated, outline⟩ := Option.map_eq_some_iff.mp
    (by decide +kernel : (generate 9 879 3 2 3).map (fun workload =>
      (workload.spawns.map fun plan => (plan.parent, plan.child), workload.writes.length)) =
        some ([(0, 1), (0, 3), (1, 2)], 2))
  obtain ⟨spawns, writes⟩ := Prod.mk.inj outline
  exact ⟨workload, generated, spawns, writes, generated_wellFormed generated⟩

end Progeny.Workload
