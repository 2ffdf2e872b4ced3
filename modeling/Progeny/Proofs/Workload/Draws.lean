import Progeny.Proofs.Random.Draw
import Progeny.Proofs.Workload.Reachability
import Progeny.Proofs.Workload.Routes

/-! Workloads that are drawn at random come from a grown tree and transmissions that suit it. The
edges of the transmissions form no cycle, and each transmission has a payload of limited size. -/

namespace Progeny.Workload

/-- Every parent that is drawn is a node drawn before. -/
theorem ensures_drawParents (fuel : Nat) {count : Nat} (positive : 0 < count) (more : Nat) :
    (drawParents fuel count more).Ensures fun parents => parents.length = more ∧
      ∀ index parent, parents[index]? = some parent → parent < count + index := by
  -- Each node draws its parent among the nodes before it.
  induction more generalizing count with
  | zero => exact .pure (by simp)
  | succ more ih =>
    unfold drawParents
    refine (Draw.ensures_below positive fuel).bind fun first small => ?_
    refine (ih (Nat.succ_pos count)).bind fun rest drawn => .pure ⟨by simp [drawn.1], ?_⟩
    intro index parent found
    cases index with
    | zero =>
      obtain rfl := Option.some.inj found
      exact small
    | succ index =>
      have := drawn.2 index parent found
      omega

/-- Edges lead from one node to another, and no cycle is formed by them. -/
structure SoundEdges (nodes : Nat) (edges : Edges) : Prop where
  ends : ∀ edge ∈ edges, edge.1 < nodes ∧ edge.2 < nodes ∧ edge.1 ≠ edge.2
  acyclic : edges.IsAcyclic

/-- No edges are sound. -/
theorem soundEdges_nil (nodes : Nat) : SoundEdges nodes [] :=
  ⟨by simp, Edges.isAcyclic_nil⟩

/-- Edges stay sound with one more from a node to another that does not lead back. -/
theorem SoundEdges.concat {nodes : Nat} {edges : Edges} {edge : Nat × Nat}
    (sound : SoundEdges nodes edges) (ends : edge.1 < nodes ∧ edge.2 < nodes ∧ edge.1 ≠ edge.2)
    (apart : edges.reaches edge.2 edge.1 = false) : SoundEdges nodes (edges ++ [edge]) where
  ends := by
    intro other member
    rcases List.mem_append.mp member with older | new
    · exact sound.ends other older
    · obtain rfl := List.mem_singleton.mp new
      exact ends
  acyclic := sound.acyclic.concat apart

/-- An edge leads from one node to another, from where the edges before it do not lead back. -/
theorem ensures_drawEdge (fuel : Nat) {nodes : Nat} (positive : 0 < nodes) (edges : Edges)
    (attempts : Nat) : (drawEdge fuel nodes edges attempts).Ensures fun drawn =>
      ∀ edge, drawn = some edge → (edge.1 < nodes ∧ edge.2 < nodes ∧ edge.1 ≠ edge.2) ∧
        edges.reaches edge.2 edge.1 = false := by
  -- The reader is drawn among all nodes but the writer.
  induction attempts with
  | zero => exact .pure (by simp)
  | succ attempts ih =>
    unfold drawEdge
    refine (Draw.ensures_below positive fuel).bind fun writer writerSmall => ?_
    refine (Draw.ensures_belowExcept positive writer fuel fuel).bind fun reader drawn => ?_
    split
    · exact ih
    · rename_i apart
      refine .pure fun edge same => ?_
      obtain rfl := Option.some.inj same
      exact ⟨⟨writerSmall, drawn.1, Ne.symm drawn.2⟩, by simpa using apart⟩

/-- Edges that are drawn are sound, and there are no more than were asked for. -/
theorem ensures_drawEdges (fuel : Nat) {nodes : Nat} (positive : 0 < nodes) (attempts more : Nat)
    {edges : Edges} (sound : SoundEdges nodes edges) :
    (drawEdges fuel nodes attempts more edges).Ensures fun drawn =>
      drawn.length ≤ edges.length + more ∧ SoundEdges nodes drawn := by
  -- An edge that was not found ends the drawing, and a found one is sound.
  induction more generalizing edges with
  | zero => exact .pure ⟨Nat.le_refl _, sound⟩
  | succ more ih =>
    unfold drawEdges
    refine (ensures_drawEdge fuel positive edges attempts).bind fun drawn edge => ?_
    cases drawn with
    | none => exact .pure ⟨Nat.le_add_right _ _, sound⟩
    | some last =>
      obtain ⟨ends, apart⟩ := edge last rfl
      intro stream value rest drawn
      have result := ih (sound.concat ends apart) stream value rest drawn
      simp only [List.length_append, List.length_singleton] at result
      exact ⟨by omega, result.2⟩

/-- Every edge gets a payload of at least one byte and at most as many as the limit. -/
theorem ensures_drawPayloads (fuel : Nat) (edges : Edges) :
    (drawPayloads fuel edges).Ensures fun sent =>
      sent.map (fun transmission => (transmission.writer, transmission.reader)) = edges ∧
        ∀ transmission ∈ sent,
          0 < transmission.data.length ∧ transmission.data.length ≤ payloadLimit := by
  -- Payloads are drawn for the edges in their order.
  induction edges with
  | nil => exact .pure ⟨rfl, by simp⟩
  | cons edge rest ih =>
    unfold drawPayloads
    refine (Draw.ensures_below (by decide) fuel).bind fun length small => ?_
    refine (Draw.ensures_bytes (length + 1)).bind fun data size => ?_
    refine ih.bind fun sent drawn => .pure ⟨by simp [drawn.1], fun transmission member => ?_⟩
    rcases List.mem_cons.mp member with rfl | later
    · simp only [size]
      omega
    · exact drawn.2 transmission later

/-- A tree and transmissions over it as they are drawn for a number of spawns and at most a number
of writes. -/
structure Drawn (spawns writes : Nat) (tree : SpawnTree) (sent : List Transmission) : Prop where
  suits : tree.Suits sent
  size : tree.size = spawns + 1
  few : sent.length ≤ writes
  payloads : ∀ transmission ∈ sent,
    0 < transmission.data.length ∧ transmission.data.length ≤ payloadLimit
  acyclic : Edges.IsAcyclic
    (sent.map fun transmission => (transmission.writer, transmission.reader))

/-- Payloads for few sound edges between nodes of a small grown tree complete what is drawn. -/
theorem ensures_drawn (fuel : Nat) {spawns writes : Nat} {tree : SpawnTree} (grown : tree.IsGrown)
    (size : tree.size = spawns + 1) (small : spawns < 2 ^ 32) (limit : writes < 2 ^ 32)
    {edges : Edges} (few : edges.length ≤ writes) (sound : SoundEdges (spawns + 1) edges) :
    (do return ofTransmissions tree (← drawPayloads fuel edges) : Draw Workload).Ensures
      fun workload => ∃ tree sent, workload = ofTransmissions tree sent ∧
        Drawn spawns writes tree sent := by
  -- Edges are sound by assumption, and transmissions have the ends of their edges.
  refine (ensures_drawPayloads fuel edges).bind fun sent drawn => .pure ⟨tree, sent, rfl, ?_⟩
  obtain ⟨same, payloads⟩ := drawn
  have count : sent.length = edges.length := by rw [← same, List.length_map]
  have ends {transmission : Transmission} (member : transmission ∈ sent) :=
    sound.ends (transmission.writer, transmission.reader) (same ▸ List.mem_map_of_mem member)
  refine ⟨⟨grown, by omega, by omega, fun transmission member side => ?_, fun transmission member =>
    (ends member).2.2⟩, size, by omega, payloads, same ▸ sound.acyclic⟩
  rw [size]
  cases side with
  | first => exact (ends member).2.1
  | second => exact (ends member).1

/-- A workload that is generated is that of a tree and transmissions that were drawn. -/
theorem drawn_of_generate {fuel : Nat} {seed : UInt64} {spawns writes attempts : UInt32}
    {workload : Workload} (generated : generate fuel seed spawns writes attempts = some workload) :
    ∃ tree sent, workload = ofTransmissions tree sent ∧
      Drawn spawns.toNat writes.toNat tree sent := by
  obtain ⟨⟨_, rest⟩, drawn, rfl⟩ := Option.map_eq_some_iff.mp generated
  suffices ensured : (draw fuel spawns.toNat writes.toNat attempts.toNat).Ensures fun workload =>
      ∃ tree sent, workload = ofTransmissions tree sent ∧
        Drawn spawns.toNat writes.toNat tree sent from ensured _ _ _ drawn
  have spawnsSmall := spawns.toNat_lt
  have writesSmall := writes.toNat_lt
  unfold draw
  refine (ensures_drawParents fuel Nat.one_pos spawns.toNat).bind fun parents drawn => ?_
  have size : SpawnTree.size ⟨parents⟩ = spawns.toNat + 1 := by simp [SpawnTree.size, drawn.1]
  have grown : SpawnTree.IsGrown ⟨parents⟩ := by
    intro node parent under
    cases node with
    | zero => simp [SpawnTree.parent?] at under
    | succ index =>
      have := drawn.2 index parent under
      omega
  -- A single node has no edges; otherwise they are drawn.
  have finish {edges : Edges} (few : edges.length ≤ writes.toNat)
      (sound : SoundEdges (spawns.toNat + 1) edges) :=
    ensures_drawn fuel grown size spawnsSmall writesSmall few sound
  dsimp only
  split
  · exact (Draw.Ensures.pure rfl : Draw.Ensures _ fun edges => edges = []).bind fun edges none =>
      finish (by simp [none]) (none ▸ soundEdges_nil _)
  · refine (ensures_drawEdges fuel (Nat.succ_pos _) attempts.toNat writes.toNat
      (soundEdges_nil _)).bind fun edges drawn => finish ?_ drawn.2
    simpa using drawn.1

/-- A workload that is drawn is one of a tree of as many nodes as were asked for and of no more
transmissions than were asked for, which suit it. -/
theorem suits_of_generate {fuel : Nat} {seed : UInt64} {spawns writes attempts : UInt32}
    {workload : Workload} (generated : generate fuel seed spawns writes attempts = some workload) :
    ∃ tree sent, workload = ofTransmissions tree sent ∧ tree.Suits sent ∧
      tree.size = spawns.toNat + 1 ∧ sent.length ≤ writes.toNat := by
  obtain ⟨tree, sent, same, drawn⟩ := drawn_of_generate generated
  exact ⟨tree, sent, same, drawn.suits, drawn.size, drawn.few⟩

end Progeny.Workload
