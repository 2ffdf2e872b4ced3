import Mathlib.Algebra.Ring.Nat
import Progeny.Pipe.Basic
import Progeny.Proofs.Workload.Tree
import Progeny.Workload.Actor

/-! What a workload over a tree asks of each of its instances: the pipes to create, the children to
spawn with the ends to hand them, and the transfers to make. -/

namespace Progeny

/-- Words of small numbers differ if the numbers do. -/
theorem ofNat_inj {one other : Nat} (oneSmall : one < 2 ^ 64) (otherSmall : other < 2 ^ 64) :
    UInt64.ofNat one = UInt64.ofNat other ↔ one = other := by
  rw [← UInt64.toNat_inj, UInt64.toNat_ofNat_of_lt' oneSmall, UInt64.toNat_ofNat_of_lt' otherSmall]

namespace Transmission

/-- The node that uses an end of the pipe of a transmission: the reader the first end, and the
writer the second. -/
def target (sent : Transmission) : Side → Nat
  | .first => sent.reader
  | .second => sent.writer

/-- The number of an end of the pipe of a numbered transmission. -/
def pipeNumber (number : Nat) : Side → UInt64
  | .first => readerPipe number
  | .second => writerPipe number

/-- The node that creates the pipe of a transmission. -/
def meeting (tree : SpawnTree) (sent : Transmission) : Nat :=
  tree.commonAncestor sent.writer sent.reader

/-- A node is handed an end of the pipe of a transmission. -/
def Passes (tree : SpawnTree) (sent : Transmission) (side : Side) (node : Nat) : Prop :=
  node ∈ tree.pathBelow (sent.meeting tree) (sent.target side)

/-- The number of an end tells the transmission and the side. -/
theorem pipeNumber_inj {one other : Nat} {side across : Side} (oneSmall : one < 2 ^ 32)
    (otherSmall : other < 2 ^ 32) :
    pipeNumber one side = pipeNumber other across ↔ one = other ∧ side = across := by
  cases side <;> cases across <;> simp only [pipeNumber, readerPipe, writerPipe] <;>
    rw [ofNat_inj (by omega) (by omega)] <;> simp <;> omega

end Transmission

/-- The part of a transmission that falls to one of its ends: its number and the side. -/
abbrev Leg := Nat × Side

/-- A tree is small and grown, and so few transmissions lead from one of its nodes to another that
words can number them. -/
structure SpawnTree.Suits (tree : SpawnTree) (sent : List Transmission) : Prop where
  grown : tree.IsGrown
  small : tree.size ≤ 2 ^ 32
  few : sent.length ≤ 2 ^ 32
  inside : ∀ transmission ∈ sent, ∀ side, transmission.target side < tree.size
  apart : ∀ transmission ∈ sent, transmission.writer ≠ transmission.reader

namespace Workload

variable {tree : SpawnTree} {sent : List Transmission}

/-- The nodes that are handed ends, each with the number of the end. -/
def handovers (tree : SpawnTree) (sent : List Transmission) : List (Nat × UInt64) :=
  (sent.mapIdx fun number transmission => transmission.handovers tree number).flatten

/-- The numbers of the ends that a node is handed. -/
def handed (tree : SpawnTree) (sent : List Transmission) (node : Nat) : List UInt64 :=
  ((handovers tree sent).filter fun handover => handover.1 = node).map Prod.snd

/-- The plan to spawn a node. -/
def spawnPlan (tree : SpawnTree) (sent : List Transmission) (parent child : Nat) : SpawnPlan :=
  ⟨UInt64.ofNat parent, UInt64.ofNat child, handed tree sent child⟩

/-- The bytes of a numbered transmission. -/
def payload (sent : List Transmission) (number : Nat) : Bytes :=
  (sent[number]?.map Transmission.data).getD []

/-- The legs that end at a node, in the order of their transmissions. -/
def legsOf (sent : List Transmission) (node : Nat) : List Leg :=
  sent.zipIdx.flatMap fun (transmission, number) =>
    (if transmission.writer = node then [(number, .second)] else []) ++
      (if transmission.reader = node then [(number, .first)] else [])

/-- What an instance does about a leg. -/
def transfer (sent : List Transmission) : Leg → Transfer
  | (number, .first) => .receive (Transmission.readerPipe number) (payload sent number)
  | (number, .second) => .send (Transmission.writerPipe number) (payload sent number)

section Suits

variable (suits : tree.Suits sent)
include suits

/-- The number of a transmission is small. -/
theorem number_lt {number : Nat} {transmission : Transmission}
    (found : sent[number]? = some transmission) : number < 2 ^ 32 :=
  Nat.lt_of_lt_of_le (List.getElem?_eq_some_iff.mp found).1 suits.few

/-- The two ends of a transmission are nodes of the tree. -/
theorem ends_lt {transmission : Transmission} (member : transmission ∈ sent) :
    transmission.writer < tree.size ∧ transmission.reader < tree.size :=
  ⟨suits.inside _ member .second, suits.inside _ member .first⟩

/-- The pipe of a transmission is created above both of its ends. -/
theorem meeting_mem {transmission : Transmission} (member : transmission ∈ sent) (side : Side) :
    transmission.meeting tree ∈ tree.ancestry (transmission.target side) := by
  -- The lowest common ancestor is above both ends.
  have both := SpawnTree.commonAncestor_mem suits.grown (suits.inside _ member .second)
    (suits.inside _ member .first)
  cases side with
  | first => exact both.2
  | second => exact both.1

/-- The pipe of a transmission is created by a node of the tree. -/
theorem meeting_lt {transmission : Transmission} (member : transmission ∈ sent) :
    transmission.meeting tree < tree.size := by
  have above := (SpawnTree.ancestry_sorted suits.grown _).2 _ (meeting_mem suits member .first)
  exact Nat.lt_of_le_of_lt above (suits.inside _ member .first)

omit suits in
/-- Transmissions with their numbers, one by one. -/
theorem handovers_eq (tree : SpawnTree) (sent : List Transmission) :
    handovers tree sent = sent.zipIdx.flatMap fun (transmission, number) =>
      transmission.handovers tree number := by
  unfold handovers
  rw [List.mapIdx_eq_zipIdx_map, ← List.flatMap_def]

omit suits in
/-- The nodes that are handed an end of one transmission are those that it passes. -/
theorem mem_handovers_one {transmission : Transmission} {number node : Nat} {pipe : UInt64} :
    (node, pipe) ∈ transmission.handovers tree number ↔ ∃ side,
      transmission.Passes tree side node ∧ pipe = Transmission.pipeNumber number side := by
  -- The writer's handle comes first, then the reader's.
  simp only [Transmission.handovers, List.mem_append, List.mem_map, Prod.mk.injEq]
  constructor
  · rintro (⟨_, member, rfl, rfl⟩ | ⟨_, member, rfl, rfl⟩)
    · exact ⟨.second, member, rfl⟩
    · exact ⟨.first, member, rfl⟩
  · rintro ⟨side, member, rfl⟩
    cases side with
    | first => exact .inr ⟨node, member, rfl, rfl⟩
    | second => exact .inl ⟨node, member, rfl, rfl⟩

omit suits in
/-- A node is handed exactly the ends that pass it. -/
theorem mem_handed {node : Nat} {pipe : UInt64} : pipe ∈ handed tree sent node ↔
    ∃ number transmission side, sent[number]? = some transmission ∧
      transmission.Passes tree side node ∧ pipe = Transmission.pipeNumber number side := by
  -- Handovers of all transmissions are searched for those to this node.
  simp only [handed, List.mem_map, List.mem_filter, handovers_eq, List.mem_flatMap,
    decide_eq_true_eq]
  constructor
  · rintro ⟨⟨_, _⟩, ⟨⟨⟨transmission, number⟩, member, handed⟩, rfl⟩, rfl⟩
    obtain ⟨side, passes, rfl⟩ := mem_handovers_one.mp handed
    exact ⟨number, transmission, side, List.mk_mem_zipIdx_iff_getElem?.mp member, passes, rfl⟩
  · rintro ⟨number, transmission, side, found, passes, rfl⟩
    exact ⟨(node, _), ⟨⟨(transmission, number), List.mk_mem_zipIdx_iff_getElem?.mpr found,
      mem_handovers_one.mpr ⟨side, passes, rfl⟩⟩, rfl⟩, rfl⟩

omit suits in
/-- Numbered transmissions stand in the order of their numbers. -/
theorem zipIdx_sorted (sent : List Transmission) :
    sent.zipIdx.Pairwise fun one other => one.2 < other.2 := by
  rw [← List.pairwise_map, List.zipIdx_map_snd]
  exact List.pairwise_lt_range'

/-- No end is handed to a node twice. -/
theorem nodup_handed (node : Nat) : (handed tree sent node).Nodup := by
  -- Among handovers to one node the number of the end tells all.
  refine List.Nodup.map_on (fun one here other there same => ?_) (List.Nodup.filter _ ?_)
  · have first := (List.mem_filter.mp here).2
    have second := (List.mem_filter.mp there).2
    simp only [decide_eq_true_eq] at first second
    exact Prod.ext (first.trans second.symm) same
  · rw [handovers_eq]
    refine List.nodup_flatMap.mpr ⟨fun ⟨transmission, number⟩ member => ?_, ?_⟩
    · have small := number_lt suits (List.mk_mem_zipIdx_iff_getElem?.mp member)
      refine List.nodup_append.mpr ⟨?_, ?_, ?_⟩
      · exact (SpawnTree.nodup_pathBelow suits.grown _ _).map fun one other same =>
          (Prod.mk.inj same).1
      · exact (SpawnTree.nodup_pathBelow suits.grown _ _).map fun one other same =>
          (Prod.mk.inj same).1
      · rintro one first other second rfl
        obtain ⟨_, -, rfl⟩ := List.mem_map.mp first
        obtain ⟨_, -, same⟩ := List.mem_map.mp second
        have numbers : Transmission.pipeNumber number .first =
            Transmission.pipeNumber number .second := (Prod.mk.inj same).2
        simpa using (Transmission.pipeNumber_inj small small).mp numbers
    · refine List.Pairwise.imp_of_mem (fun {one other} first second before => ?_)
        (zipIdx_sorted sent)
      rintro ⟨node, pipe⟩ here there
      obtain ⟨side, -, rfl⟩ := mem_handovers_one.mp here
      obtain ⟨across, -, same⟩ := mem_handovers_one.mp there
      have numbers := (Transmission.pipeNumber_inj
        (number_lt suits (List.mem_zipIdx_iff_getElem?.mp first))
        (number_lt suits (List.mem_zipIdx_iff_getElem?.mp second))).mp same
      omega

/-- A node creates the pipes of the transmissions that meet in it, each once. -/
theorem filter_pipes {node : Nat} (inside : node < tree.size) :
    ((ofTransmissions tree sent).pipes.filter fun plan => plan.creator = UInt64.ofNat node).Nodup ∧
      ∀ plan, plan ∈ (ofTransmissions tree sent).pipes.filter
          (fun plan => plan.creator = UInt64.ofNat node) ↔
        ∃ (number : Nat) (transmission : Transmission), sent[number]? = some transmission ∧
          transmission.meeting tree = node ∧ plan = transmission.pipePlan tree number := by
  -- Plans are sorted but otherwise those of the transmissions, whose numbers tell them apart.
  have small := suits.small
  constructor
  · refine List.Nodup.filter _ ?_
    simp only [ofTransmissions]
    rw [(List.mergeSort_perm _ _).nodup_iff, List.mapIdx_eq_zipIdx_map, List.nodup_iff_pairwise_ne,
      List.pairwise_map]
    refine List.Pairwise.imp_of_mem (fun {one other} first second before same => ?_)
      (zipIdx_sorted sent)
    have pipes : Transmission.pipeNumber one.2 .first = Transmission.pipeNumber other.2 .first :=
      congrArg PipePlan.readPipe same
    have numbers := (Transmission.pipeNumber_inj
      (number_lt suits (List.mem_zipIdx_iff_getElem?.mp first))
      (number_lt suits (List.mem_zipIdx_iff_getElem?.mp second))).mp pipes
    omega
  · intro plan
    simp only [ofTransmissions, List.mem_filter, List.mem_mergeSort, List.mem_mapIdx,
      decide_eq_true_eq]
    constructor
    · rintro ⟨⟨number, inside', rfl⟩, creator⟩
      have found := List.getElem?_eq_getElem inside'
      have meeting := meeting_lt suits (List.getElem_mem inside')
      refine ⟨number, sent[number], found, ?_, rfl⟩
      exact (ofNat_inj (by omega) (by omega)).mp creator
    · rintro ⟨number, transmission, found, rfl, rfl⟩
      obtain ⟨inside', rfl⟩ := List.getElem?_eq_some_iff.mp found
      exact ⟨⟨number, inside', rfl⟩, rfl⟩

/-- A node spawns its children, each once. -/
theorem filter_spawns {node : Nat} (inside : node < tree.size) :
    ((ofTransmissions tree sent).spawns.filter fun plan => plan.parent = UInt64.ofNat node).Nodup ∧
      ∀ plan, plan ∈ (ofTransmissions tree sent).spawns.filter
          (fun plan => plan.parent = UInt64.ofNat node) ↔
        ∃ child, tree.parent? child = some node ∧ plan = spawnPlan tree sent node child := by
  -- Plans are those of the nodes in the tree, whose numbers tell them apart.
  have small := suits.small
  obtain ⟨once, members⟩ := SpawnTree.mem_breadthFirst suits.grown
  constructor
  · refine List.Nodup.filter _ ?_
    simp only [ofTransmissions]
    rw [List.nodup_iff_pairwise_ne, List.pairwise_filterMap]
    refine List.Pairwise.imp_of_mem (fun {one other} first second differ => ?_) once
    rintro _ here _ there rfl
    obtain ⟨_, -, rfl⟩ := Option.map_eq_some_iff.mp here
    obtain ⟨_, -, same⟩ := Option.map_eq_some_iff.mp there
    have firstInside := (members one).mp first
    have secondInside := (members other).mp second
    have children : UInt64.ofNat other = UInt64.ofNat one := congrArg SpawnPlan.child same
    exact differ ((ofNat_inj (by omega) (by omega)).mp children).symm
  · intro plan
    simp only [ofTransmissions, List.mem_filter, List.mem_filterMap, Option.map_eq_some_iff,
      decide_eq_true_eq]
    constructor
    · rintro ⟨⟨child, member, parent, under, rfl⟩, same⟩
      have less := suits.grown child parent under
      have range := SpawnTree.range_of_parent? under
      obtain rfl := (ofNat_inj (by omega) (by omega)).mp same
      exact ⟨child, under, rfl⟩
    · rintro ⟨child, under, rfl⟩
      exact ⟨⟨child, (members child).mpr (SpawnTree.range_of_parent? under), node, under, rfl⟩, rfl⟩

/-- The transfers of a node are its legs. -/
theorem flatMap_transfersOf {node : Nat} (inside : node < tree.size) :
    (ofTransmissions tree sent).writes.flatMap (·.transfersOf (UInt64.ofNat node)) =
      (legsOf sent node).map (transfer sent) := by
  -- Write by write, the writer's end and the reader's end are found at the same nodes.
  have small := suits.small
  simp only [ofTransmissions, legsOf]
  rw [List.mapIdx_eq_zipIdx_map, List.flatMap_map, List.map_flatMap]
  refine List.flatMap_congr fun ⟨transmission, number⟩ member => ?_
  have found := List.mk_mem_zipIdx_iff_getElem?.mp member
  have there := List.mem_of_getElem? found
  obtain ⟨writer, reader⟩ := ends_lt suits there
  have data : payload sent number = transmission.data := by simp [payload, found]
  have same (other : Nat) (otherInside : other < tree.size) :
      UInt64.ofNat other = UInt64.ofNat node ↔ other = node := ofNat_inj (by omega) (by omega)
  simp only [WritePlan.transfersOf, Transmission.writePlan, same _ writer, same _ reader,
    List.map_append]
  split <;> split <;> simp [transfer, data]

omit suits in
/-- The legs of a node are those that end there. -/
theorem mem_legsOf {node number : Nat} {side : Side} : (number, side) ∈ legsOf sent node ↔
    ∃ transmission, sent[number]? = some transmission ∧ transmission.target side = node := by
  -- A leg is the writer's or the reader's.
  simp only [legsOf, List.mem_flatMap, List.mem_append]
  constructor
  · rintro ⟨⟨transmission, index⟩, member, leg⟩
    have found := List.mk_mem_zipIdx_iff_getElem?.mp member
    rcases leg with leg | leg
    · split at leg
      · simp only [List.mem_singleton, Prod.mk.injEq] at leg
        obtain ⟨rfl, rfl⟩ := leg
        exact ⟨transmission, found, ‹_›⟩
      · simp at leg
    · split at leg
      · simp only [List.mem_singleton, Prod.mk.injEq] at leg
        obtain ⟨rfl, rfl⟩ := leg
        exact ⟨transmission, found, ‹_›⟩
      · simp at leg
  · rintro ⟨transmission, found, target⟩
    refine ⟨(transmission, number), List.mk_mem_zipIdx_iff_getElem?.mpr found, ?_⟩
    cases side with
    | first => exact .inr (by simpa [Transmission.target] using target)
    | second => exact .inl (by simpa [Transmission.target] using target)

/-- A node has one leg of a transmission at most, and takes them in the order of their numbers. -/
theorem legsOf_sorted (node : Nat) :
    (legsOf sent node).Pairwise fun one other => one.1 < other.1 := by
  -- No node has both legs of a transmission, and transmissions are taken in their order.
  unfold legsOf
  rw [List.pairwise_flatMap]
  refine ⟨fun ⟨transmission, number⟩ member => ?_, ?_⟩
  · have apart := suits.apart transmission
      (List.mem_of_getElem? (List.mk_mem_zipIdx_iff_getElem?.mp member))
    by_cases writer : transmission.writer = node
    · have reader : transmission.reader ≠ node := fun same => apart (writer.trans same.symm)
      simp [writer, reader]
    · by_cases reader : transmission.reader = node <;> simp [writer, reader]
  · refine (zipIdx_sorted sent).imp fun {one other} before => ?_
    have number {entry : Transmission × Nat} {leg : Leg}
        (member : leg ∈ (if entry.1.writer = node then [(entry.2, Side.second)] else []) ++
          (if entry.1.reader = node then [(entry.2, Side.first)] else [])) : leg.1 = entry.2 := by
      rcases List.mem_append.mp member with leg | leg <;> split at leg <;> simp_all
    intro leg here across there
    rw [number here, number there]
    exact before

end Suits

end Workload

end Progeny
