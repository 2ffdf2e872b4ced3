import Progeny.Proofs.Workload.Breadth
import Progeny.Proofs.Workload.Draws
import Progeny.Proofs.Workload.Opening

/-! How the pipes of generated workloads are routed: each is created where the ways from the first
instance to its writer and its reader part, and each end is handed down along one of them. -/

namespace Progeny

/-- A stable sort keeps the order of items whose keys are the same. -/
theorem pairwise_mergeSort_stable {α : Type} (le : α → α → Bool) {before : α → α → Prop}
    {items : List α} (trans : ∀ one other third, le one other → le other third → le one third)
    (total : ∀ one other, le one other || le other one) (once : items.Nodup)
    (ordered : items.Pairwise before) :
    (items.mergeSort le).Pairwise fun one other =>
      le one other ∧ (le other one → before one other) := by
  have sorted := List.pairwise_mergeSort trans total items
  refine List.pairwise_iff_forall_sublist.mpr fun {one other} order =>
    ⟨List.pairwise_iff_forall_sublist.mp sorted order, fun same => ?_⟩
  have onceSorted : (items.mergeSort le).Nodup := (List.mergeSort_perm items le).nodup_iff.mpr once
  have differ : one ≠ other :=
    List.pairwise_iff_forall_sublist.mp (List.nodup_iff_pairwise_ne.mp onceSorted) order
  have here : one ∈ items := List.mem_mergeSort.mp (order.subset (by simp))
  have there : other ∈ items := List.mem_mergeSort.mp (order.subset (by simp))
  -- The other one stands behind the first, or else the sort would have left it in front.
  obtain ⟨left, right, split⟩ := List.append_of_mem here
  rw [split] at there
  rcases List.mem_append.mp there with front | back
  · have reverse : [other, one].Sublist items := by
      rw [split]
      exact (List.singleton_sublist.mpr front).append (List.singleton_sublist.mpr (.head _))
    exact absurd (List.pair_sublist_mergeSort trans total same reverse)
      (not_sublist_of_nodup onceSorted order)
  · have behind := (List.mem_cons.mp back).resolve_left (Ne.symm differ)
    rw [split] at ordered
    exact (List.pairwise_cons.mp (List.pairwise_append.mp ordered).2.1).1 other behind

namespace SpawnTree

variable {tree : SpawnTree} (grown : tree.IsGrown)
include grown

/-- Nodes that lie above each other are the same. -/
theorem ancestry_antisymm {one other : Nat} (above : one ∈ tree.ancestry other)
    (below : other ∈ tree.ancestry one) : one = other :=
  Nat.le_antisymm ((ancestry_sorted grown other).2 one above)
    ((ancestry_sorted grown one).2 other below)

/-- The common ancestor of two nodes is the lowest one: all others lie above it. -/
theorem commonAncestor_lowest {high first second : Nat} (above : high ∈ tree.ancestry first)
    (aboveToo : high ∈ tree.ancestry second) :
    high ∈ tree.ancestry (tree.commonAncestor first second) := by
  unfold commonAncestor
  cases found : (tree.ancestry second).find? fun node => (tree.ancestry first).contains node with
  | none =>
    have missing := List.find?_eq_none.mp found high aboveToo
    simp [above] at missing
  | some node =>
    -- The first node found on the way up is the greatest, and the others lie above it.
    obtain ⟨shared, left, right, split, skipped⟩ := List.find?_eq_some_iff_append.mp found
    have meets : node ∈ tree.ancestry first := by simpa using shared
    have sorted := (ancestry_sorted grown second).1
    have least : high ≤ node := by
      rw [split] at aboveToo sorted
      rcases List.mem_append.mp aboveToo with earlier | later
      · have passed := skipped high earlier
        simp [above] at passed
      · rcases List.mem_cons.mp later with rfl | later
        · exact Nat.le_refl _
        · exact Nat.le_of_lt
            ((List.pairwise_cons.mp (List.pairwise_append.mp sorted).2.1).1 high later)
    exact ancestry_chain grown above meets least

/-- A path goes through the nodes below its beginning and above its end. -/
theorem mem_pathBelow {ancestor node other : Nat} (above : ancestor ∈ tree.ancestry node) :
    other ∈ tree.pathBelow ancestor node ↔
      other ≠ ancestor ∧ ancestor ∈ tree.ancestry other ∧ other ∈ tree.ancestry node := by
  -- The path is followed upwards from its end.
  induction node using induction_on_parent grown with
  | top node none =>
    rw [ancestry_of_none none, List.mem_singleton] at above
    subst above
    rw [pathBelow_self, ancestry_of_none none]
    refine iff_of_false List.not_mem_nil fun ⟨differ, _, upper⟩ => differ ?_
    exact List.mem_singleton.mp upper
  | child node parent under ih =>
    by_cases same : node = ancestor
    · subst same
      rw [pathBelow_self]
      refine iff_of_false List.not_mem_nil fun ⟨differ, lower, upper⟩ => differ ?_
      exact ancestry_antisymm grown upper lower
    · obtain ⟨_, again, below, path⟩ := pathBelow_of_ne grown above same
      obtain rfl := Option.some.inj (under.symm.trans again)
      rw [path, List.mem_cons, ih below, ancestry_of_parent? grown under, List.mem_cons]
      constructor
      · rintro (rfl | ⟨differ, lower, upper⟩)
        · exact ⟨same, above, .inl rfl⟩
        · exact ⟨differ, lower, .inr upper⟩
      · rintro ⟨differ, lower, rfl | upper⟩
        · exact .inl rfl
        · exact .inr ⟨differ, lower, upper⟩

/-- The paths from the common ancestor of two nodes to these have no node in common. -/
theorem pathBelow_disjoint {first second other : Nat} (firstInside : first < tree.size)
    (secondInside : second < tree.size)
    (toFirst : other ∈ tree.pathBelow (tree.commonAncestor first second) first) :
    other ∉ tree.pathBelow (tree.commonAncestor first second) second := by
  intro toSecond
  obtain ⟨above, aboveToo⟩ := commonAncestor_mem grown firstInside secondInside
  obtain ⟨differ, below, upper⟩ := (mem_pathBelow grown above).mp toFirst
  obtain ⟨-, -, upperToo⟩ := (mem_pathBelow grown aboveToo).mp toSecond
  -- A node on both would be a common ancestor below the lowest one.
  exact differ (ancestry_antisymm grown (commonAncestor_lowest grown upper upperToo) below)

end SpawnTree

namespace Workload

/-- An instance is another one, or it spawned one that is above the other. -/
inductive IsAbove (workload : Workload) (upper : UInt64) : UInt64 → Prop where
  | itself : IsAbove workload upper upper
  | parent {plan : SpawnPlan} (planned : plan ∈ workload.spawns)
      (above : IsAbove workload upper plan.parent) : IsAbove workload upper plan.child

/-- An instance is the lowest one above two others. -/
structure MeetsIn (workload : Workload) (one other meeting : UInt64) : Prop where
  first : workload.IsAbove meeting one
  second : workload.IsAbove meeting other
  lowest : ∀ upper, workload.IsAbove upper one → workload.IsAbove upper other →
    workload.IsAbove upper meeting

/-- An instance is on the way down from another one, which does not belong to it, to a third one,
which does. -/
def IsPassed (workload : Workload) (above below index : UInt64) : Prop :=
  index ≠ above ∧ workload.IsAbove above index ∧ workload.IsAbove index below

/-- The pipe of a numbered write is created once, where the ways to its writer and its reader part,
and its ends are handed to those on the one and on the other. -/
structure Routed (workload : Workload) (number : Nat) (plan : WritePlan) : Prop where
  writerPipe : plan.writerPipe.toNat = 2 * number + 1
  readerPipe : plan.readerPipe.toNat = 2 * number
  routes : ∃ meeting, workload.MeetsIn plan.writer plan.reader meeting ∧
    workload.pipes.filter (fun made =>
      made.readPipe = plan.readerPipe ∧ made.writePipe = plan.writerPipe) =
        [⟨meeting, plan.readerPipe, plan.writerPipe⟩] ∧
    ∀ spawn ∈ workload.spawns,
      (plan.writerPipe ∈ spawn.pipes ↔ workload.IsPassed meeting plan.writer spawn.child) ∧
        (plan.readerPipe ∈ spawn.pipes ↔ workload.IsPassed meeting plan.reader spawn.child)
  /-- Nobody is handed both ends. -/
  apart : ∀ spawn ∈ workload.spawns,
    ¬(plan.writerPipe ∈ spawn.pipes ∧ plan.readerPipe ∈ spawn.pipes)

/-- The pipes of a workload are those of its writes, and they are routed along its tree. -/
structure Wired (workload : Workload) : Prop where
  routed : ∀ number plan, workload.writes[number]? = some plan → workload.Routed number plan
  /-- No end is handed over twice at once. -/
  once : ∀ spawn ∈ workload.spawns, spawn.pipes.Nodup
  /-- Only ends of the pipes of writes are handed over. -/
  handed : ∀ spawn ∈ workload.spawns, ∀ pipe ∈ spawn.pipes, ∃ plan ∈ workload.writes,
    pipe = plan.writerPipe ∨ pipe = plan.readerPipe
  /-- Only pipes of writes are created. -/
  created : ∀ made ∈ workload.pipes, ∃ plan ∈ workload.writes,
    made.readPipe = plan.readerPipe ∧ made.writePipe = plan.writerPipe
  /-- Pipes are listed by their creators, and those of one creator by their numbers. -/
  sorted : workload.pipes.Pairwise fun one other => one.creator < other.creator ∨
    one.creator = other.creator ∧ one.readPipe < other.readPipe

section Suits

variable {tree : SpawnTree} {sent : List Transmission} (suits : tree.Suits sent)
include suits

/-- The instances above that of a node are those of the nodes above it. -/
theorem isAbove_iff {node : Nat} (inside : node < tree.size) {index : UInt64} :
    (ofTransmissions tree sent).IsAbove index (UInt64.ofNat node) ↔
      ∃ upper ∈ tree.ancestry node, index = UInt64.ofNat upper := by
  have small := suits.small
  constructor
  · -- The chain of spawns is followed up to its beginning.
    intro above
    generalize same : UInt64.ofNat node = lower at above
    induction above generalizing node with
    | itself => exact ⟨node, tree.self_mem_ancestry node, same.symm⟩
    | parent planned _ ih =>
      obtain ⟨parent, child, under, rfl⟩ := (mem_spawns suits).mp planned
      have range := SpawnTree.range_of_parent? under
      have less := suits.grown child parent under
      obtain rfl := (ofNat_inj (by omega) (by omega)).mp same
      obtain ⟨upper, member, rfl⟩ := ih (Nat.lt_trans less inside) rfl
      refine ⟨upper, ?_, rfl⟩
      rw [SpawnTree.ancestry_of_parent? suits.grown under]
      exact List.mem_cons_of_mem _ member
  · rintro ⟨upper, member, rfl⟩
    -- From a node upwards every parent has spawned its child.
    induction node using SpawnTree.induction_on_parent suits.grown with
    | top node none =>
      rw [SpawnTree.ancestry_of_none none, List.mem_singleton] at member
      exact member ▸ .itself
    | child node parent under ih =>
      have less := suits.grown node parent under
      rw [SpawnTree.ancestry_of_parent? suits.grown under, List.mem_cons] at member
      rcases member with rfl | further
      · exact .itself
      · exact .parent ((mem_spawns suits).mpr ⟨parent, node, under, rfl⟩)
          (ih (Nat.lt_trans less inside) further)

/-- Of two nodes one is above the other exactly if its instance is above that of the other. -/
theorem isAbove_ofNat {upper node : Nat} (high : upper < tree.size) (inside : node < tree.size) :
    (ofTransmissions tree sent).IsAbove (UInt64.ofNat upper) (UInt64.ofNat node) ↔
      upper ∈ tree.ancestry node := by
  have small := suits.small
  rw [isAbove_iff suits inside]
  constructor
  · rintro ⟨other, member, same⟩
    have below := (SpawnTree.ancestry_sorted suits.grown node).2 other member
    obtain rfl := (ofNat_inj (by omega) (by omega)).mp same
    exact member
  · exact fun member => ⟨upper, member, rfl⟩

/-- A transmission meets in the lowest instance above its writer and its reader. -/
theorem meetsIn_meeting {transmission : Transmission} (member : transmission ∈ sent) :
    (ofTransmissions tree sent).MeetsIn (UInt64.ofNat transmission.writer)
      (UInt64.ofNat transmission.reader) (UInt64.ofNat (transmission.meeting tree)) := by
  have small := suits.small
  obtain ⟨writer, reader⟩ := ends_lt suits member
  have meeting := meeting_lt suits member
  refine ⟨(isAbove_ofNat suits meeting writer).mpr (meeting_mem suits member .second),
    (isAbove_ofNat suits meeting reader).mpr (meeting_mem suits member .first), ?_⟩
  -- Whoever is above both ends is above the lowest common ancestor of their nodes.
  intro index above aboveToo
  obtain ⟨upper, toWriter, rfl⟩ := (isAbove_iff suits writer).mp above
  have below := (SpawnTree.ancestry_sorted suits.grown _).2 upper toWriter
  have toReader := (isAbove_ofNat suits (by omega) reader).mp aboveToo
  exact (isAbove_iff suits meeting).mpr
    ⟨upper, SpawnTree.commonAncestor_lowest suits.grown toWriter toReader, rfl⟩

/-- A transmission passes the nodes on the way to its target. -/
theorem passes_iff {transmission : Transmission} (member : transmission ∈ sent) (side : Side)
    {child : Nat} (inside : child < tree.size) : transmission.Passes tree side child ↔
      (ofTransmissions tree sent).IsPassed (UInt64.ofNat (transmission.meeting tree))
        (UInt64.ofNat (transmission.target side)) (UInt64.ofNat child) := by
  have small := suits.small
  have target := suits.inside _ member side
  have meeting := meeting_lt suits member
  unfold Transmission.Passes IsPassed
  rw [SpawnTree.mem_pathBelow suits.grown (meeting_mem suits member side),
    isAbove_ofNat suits meeting inside, isAbove_ofNat suits inside target,
    Ne, Ne, ofNat_inj (by omega) (by omega)]

/-- No node is passed on both ways of a transmission. -/
theorem not_passes_both {transmission : Transmission} (member : transmission ∈ sent) {node : Nat}
    (toWriter : transmission.Passes tree .second node) : ¬transmission.Passes tree .first node :=
  SpawnTree.pathBelow_disjoint suits.grown (suits.inside _ member .second)
    (suits.inside _ member .first) toWriter

/-- A node is handed an end of a transmission exactly if that passes it. -/
theorem pipeNumber_mem_handed {number : Nat} {transmission : Transmission}
    (found : sent[number]? = some transmission) (side : Side) (node : Nat) :
    Transmission.pipeNumber number side ∈ handed tree sent node ↔
      transmission.Passes tree side node := by
  rw [mem_handed]
  constructor
  · rintro ⟨other, across, sideToo, foundToo, passes, same⟩
    obtain ⟨rfl, rfl⟩ := (Transmission.pipeNumber_inj (number_lt suits found)
      (number_lt suits foundToo)).mp same
    obtain rfl := Option.some.inj (found.symm.trans foundToo)
    exact passes
  · exact fun passes => ⟨number, transmission, side, found, passes, rfl⟩

/-- The ends of the pipe of a numbered transmission have the numbers that its own number tells. -/
theorem toNat_pipeNumber {number : Nat} {transmission : Transmission}
    (found : sent[number]? = some transmission) :
    (Transmission.writerPipe number).toNat = 2 * number + 1 ∧
      (Transmission.readerPipe number).toNat = 2 * number := by
  have small := number_lt suits found
  have writer : 2 * number + 1 < 2 ^ 64 := by omega
  have reader : 2 * number < 2 ^ 64 := by omega
  exact ⟨UInt64.toNat_ofNat_of_lt' writer, UInt64.toNat_ofNat_of_lt' reader⟩

/-- Pipes are listed by their creators, and those of one creator by their numbers. -/
theorem pipes_sorted : (ofTransmissions tree sent).pipes.Pairwise fun one other =>
    one.creator < other.creator ∨
      one.creator = other.creator ∧ one.readPipe < other.readPipe := by
  -- Before they are sorted by creators the pipes stand in the order of their numbers.
  have ordered : (sent.mapIdx fun number sent => sent.pipePlan tree number).Pairwise
      fun (one other : PipePlan) => one.readPipe < other.readPipe := by
    rw [List.mapIdx_eq_zipIdx_map, List.pairwise_map]
    refine (zipIdx_sorted sent).imp_of_mem fun {one other} here there before => ?_
    rw [UInt64.lt_iff_toNat_lt]
    show (Transmission.readerPipe one.2).toNat < (Transmission.readerPipe other.2).toNat
    rw [(toNat_pipeNumber suits (List.mem_zipIdx_iff_getElem?.mp here)).2,
      (toNat_pipeNumber suits (List.mem_zipIdx_iff_getElem?.mp there)).2]
    omega
  have once := ordered.imp fun {one other : PipePlan} before (same : one = other) =>
    UInt64.lt_irrefl _ (same ▸ before)
  have sorted := pairwise_mergeSort_stable
    (fun first second : PipePlan => decide (first.creator ≤ second.creator))
    (fun one other third => by simpa using UInt64.le_trans)
    (fun one other => by simpa using UInt64.le_total _ _) (List.nodup_iff_pairwise_ne.mpr once)
    ordered
  refine sorted.imp fun {one other} ⟨order, stable⟩ => ?_
  simp only [decide_eq_true_eq] at order stable
  rcases UInt64.lt_or_eq_of_le order with less | same
  · exact .inl less
  · exact .inr ⟨same, stable (UInt64.le_of_eq same.symm)⟩

omit suits in
/-- A write of the workload is that of a numbered transmission. -/
theorem exists_transmission {number : Nat} {plan : WritePlan}
    (found : (ofTransmissions tree sent).writes[number]? = some plan) :
    ∃ transmission, sent[number]? = some transmission ∧ plan = transmission.writePlan number := by
  simp only [ofTransmissions, List.getElem?_mapIdx, Option.map_eq_some_iff] at found
  obtain ⟨transmission, found, rfl⟩ := found
  exact ⟨transmission, found, rfl⟩

omit suits in
/-- A numbered transmission is written. -/
theorem writePlan_mem {number : Nat} {transmission : Transmission}
    (found : sent[number]? = some transmission) :
    transmission.writePlan number ∈ (ofTransmissions tree sent).writes := by
  obtain ⟨inside, rfl⟩ := List.getElem?_eq_some_iff.mp found
  exact List.mem_mapIdx.mpr ⟨number, inside, rfl⟩

omit suits in
/-- Pipes are created for the numbered transmissions. -/
theorem mem_pipes {made : PipePlan} : made ∈ (ofTransmissions tree sent).pipes ↔
    ∃ (number : Nat) (transmission : Transmission), sent[number]? = some transmission ∧
      made = transmission.pipePlan tree number := by
  simp only [ofTransmissions, List.mem_mergeSort, List.mem_mapIdx]
  constructor
  · rintro ⟨number, inside, rfl⟩
    exact ⟨number, sent[number], List.getElem?_eq_getElem inside, rfl⟩
  · rintro ⟨number, transmission, found, rfl⟩
    obtain ⟨inside, rfl⟩ := List.getElem?_eq_some_iff.mp found
    exact ⟨number, inside, rfl⟩

/-- One pipe is created for a numbered transmission. -/
theorem filter_pipes_of_number {number : Nat} {transmission : Transmission}
    (found : sent[number]? = some transmission) :
    ((ofTransmissions tree sent).pipes.filter fun made =>
      made.readPipe = Transmission.readerPipe number ∧
        made.writePipe = Transmission.writerPipe number) =
      [transmission.pipePlan tree number] := by
  have once : (ofTransmissions tree sent).pipes.Nodup := by
    refine (pipes_sorted suits).imp fun {one other} order same => ?_
    subst same
    simp at order
  -- Numbers of ends tell the transmissions apart.
  refine List.perm_singleton.mp
    ((List.perm_ext_iff_of_nodup (once.filter _) (List.nodup_singleton _)).mpr fun made => ?_)
  rw [List.mem_filter, List.mem_singleton, mem_pipes, decide_eq_true_eq]
  constructor
  · rintro ⟨⟨other, across, foundToo, rfl⟩, same, -⟩
    have numbers : Transmission.pipeNumber other .first = Transmission.pipeNumber number .first :=
      same
    obtain ⟨rfl, -⟩ := (Transmission.pipeNumber_inj (number_lt suits foundToo)
      (number_lt suits found)).mp numbers
    obtain rfl := Option.some.inj (found.symm.trans foundToo)
    rfl
  · rintro rfl
    exact ⟨⟨number, transmission, found, rfl⟩, rfl, rfl⟩

/-- The pipe of a numbered transmission is routed along the tree. -/
theorem routed_writePlan {number : Nat} {transmission : Transmission}
    (found : sent[number]? = some transmission) :
    (ofTransmissions tree sent).Routed number (transmission.writePlan number) := by
  have member := List.mem_of_getElem? found
  obtain ⟨writerPipe, readerPipe⟩ := toNat_pipeNumber suits found
  refine ⟨writerPipe, readerPipe, ⟨_, meetsIn_meeting suits member,
    filter_pipes_of_number suits found, fun spawn planned => ?_⟩, fun spawn planned => ?_⟩
  · -- A child is handed an end exactly if it stands on the way of that end.
    obtain ⟨parent, child, under, rfl⟩ := (mem_spawns suits).mp planned
    have inside := (SpawnTree.range_of_parent? under).2
    exact ⟨(pipeNumber_mem_handed suits found .second child).trans
        (passes_iff suits member .second inside),
      (pipeNumber_mem_handed suits found .first child).trans
        (passes_iff suits member .first inside)⟩
  · -- The two ways part below their beginning.
    obtain ⟨parent, child, under, rfl⟩ := (mem_spawns suits).mp planned
    rintro ⟨toWriter, toReader⟩
    exact not_passes_both suits member
      ((pipeNumber_mem_handed suits found .second child).mp toWriter)
      ((pipeNumber_mem_handed suits found .first child).mp toReader)

end Suits

/-- Pipes of a generated workload follow its tree. For each write one pipe is created, by the lowest
instance above its writer and its reader, and each of its ends is handed exactly once to every
instance on the way down to the one who uses it, and to no other. There are no other pipes. -/
theorem generated_wired {fuel : Nat} {seed : UInt64} {spawns writes attempts : UInt32}
    {workload : Workload}
    (generated : generate fuel seed spawns writes attempts = some workload) : workload.Wired := by
  obtain ⟨tree, sent, rfl, suits, -, -⟩ := suits_of_generate generated
  refine ⟨fun number plan found => ?_, fun spawn planned => ?_, fun spawn planned pipe member => ?_,
    fun made member => ?_, pipes_sorted suits⟩
  · -- Each write is that of a transmission, whose pipe is routed.
    obtain ⟨transmission, sends, rfl⟩ := exists_transmission found
    exact routed_writePlan suits sends
  · obtain ⟨parent, child, -, rfl⟩ := (mem_spawns suits).mp planned
    exact nodup_handed suits child
  · -- What is handed to a child is an end of a pipe that passes it.
    obtain ⟨parent, child, -, rfl⟩ := (mem_spawns suits).mp planned
    obtain ⟨number, transmission, side, found, -, rfl⟩ := mem_handed.mp member
    refine ⟨transmission.writePlan number, writePlan_mem found, ?_⟩
    cases side with
    | first => exact .inr rfl
    | second => exact .inl rfl
  · obtain ⟨number, transmission, found, rfl⟩ := mem_pipes.mp member
    exact ⟨transmission.writePlan number, writePlan_mem found, rfl, rfl⟩

/-- The third instance writes to its sibling through a pipe that their parent creates, and the
sibling writes to the first instance, which creates the other pipe. -/
theorem generated_wired_of_siblings : ∃ workload, generate 9 5663 3 2 3 = some workload ∧
    workload.spawns = [⟨0, 1, [3]⟩, ⟨1, 2, [0, 3]⟩, ⟨1, 3, [1]⟩] ∧
    workload.writes.map (fun plan => (plan.writer, plan.reader)) = [(3, 2), (2, 0)] ∧
    workload.Wired := by
  obtain ⟨workload, generated, outline⟩ := Option.map_eq_some_iff.mp
    (by decide +kernel : (generate 9 5663 3 2 3).map (fun workload =>
      (workload.spawns, workload.writes.map fun plan => (plan.writer, plan.reader))) =
        some ([⟨0, 1, [3]⟩, ⟨1, 2, [0, 3]⟩, ⟨1, 3, [1]⟩], [(3, 2), (2, 0)]))
  obtain ⟨spawns, writes⟩ := Prod.mk.inj outline
  exact ⟨workload, generated, spawns, writes, generated_wired generated⟩

end Workload

end Progeny
