import Progeny.Proofs.Workload.Births

/-! The session of a workload as it is opened, with the first instance about to be started. -/

namespace Progeny

namespace Workload

open Session

/-- The first instance of a workload belongs to generation zero, and a spawned instance to that
after the generation of its parent. -/
inductive Generation (workload : Workload) : UInt64 → Nat → Prop where
  | first : Generation workload 0 0
  | next {plan : SpawnPlan} {depth : Nat} (planned : plan ∈ workload.spawns)
      (parent : Generation workload plan.parent depth) :
    Generation workload plan.child (depth + 1)

variable {tree : SpawnTree} {sent : List Transmission}

/-- The plans of a workload are those of the tree. -/
theorem mem_spawns (suits : tree.Suits sent) {plan : SpawnPlan} :
    plan ∈ (ofTransmissions tree sent).spawns ↔ ∃ parent child,
      tree.parent? child = some parent ∧ plan = spawnPlan tree sent parent child := by
  -- Breadth first, every node but the first is reached.
  simp only [ofTransmissions, List.mem_filterMap, Option.map_eq_some_iff]
  constructor
  · rintro ⟨child, -, parent, under, rfl⟩
    exact ⟨parent, child, under, rfl⟩
  · rintro ⟨parent, child, under, rfl⟩
    refine ⟨child, ?_, parent, under, rfl⟩
    exact ((SpawnTree.mem_breadthFirst suits.grown).2 child).mpr (SpawnTree.range_of_parent? under)

/-- The generation of an instance is the depth of its node. -/
theorem generation_iff (suits : tree.Suits sent) {index : UInt64} {depth : Nat} :
    (ofTransmissions tree sent).Generation index depth ↔
      ∃ node < tree.size, index = UInt64.ofNat node ∧ depth = tree.depth node := by
  have small := suits.small
  constructor
  · intro generation
    induction generation with
    | first =>
      exact ⟨0, Nat.succ_pos _, rfl, (Nat.le_zero.mp (SpawnTree.depth_le suits.grown 0)).symm⟩
    | next planned parent ih =>
      obtain ⟨node, inside, same, rfl⟩ := ih
      obtain ⟨above, child, under, rfl⟩ := (mem_spawns suits).mp planned
      have range := SpawnTree.range_of_parent? under
      have less := suits.grown child above under
      obtain rfl := (ofNat_inj (by omega) (by omega)).mp same
      exact ⟨child, range.2, rfl, (SpawnTree.depth_of_parent? suits.grown under).symm⟩
  · rintro ⟨node, inside, rfl, rfl⟩
    -- From the root down every child is spawned by its parent.
    induction node using SpawnTree.induction_on_parent suits.grown with
    | top node none =>
      have zero : node = 0 := by
        by_contra positive
        obtain ⟨parent, under⟩ := SpawnTree.exists_parent? (Nat.pos_of_ne_zero positive) inside
        simp [none] at under
      subst zero
      rw [Nat.le_zero.mp (SpawnTree.depth_le suits.grown 0)]
      exact .first
    | child node parent under ih =>
      have less := suits.grown node parent under
      rw [SpawnTree.depth_of_parent? suits.grown under]
      exact .next ((mem_spawns suits).mpr ⟨parent, node, under, rfl⟩)
        (ih (Nat.lt_trans less inside))

/-- There are as many pipes as transmissions. -/
theorem length_pipes (tree : SpawnTree) (sent : List Transmission) :
    (ofTransmissions tree sent).pipes.length = sent.length := by
  simp [ofTransmissions]

/-- The tables of a session before anything was done. -/
def freshTables (workload : Workload) (config : Config) : Tables Workload where
  config := config
  load := workload.programs.resolve
  pipes := { capacity := config.pipeCapacity, maxEndpoints := config.maxEndpoints }
  instances := { maxInstances := config.maxInstances, maxDepth := config.maxDepth }
  journal := { isKept := false }

/-- A session of a workload in which nothing was done but to create the first instance. -/
def opened (workload : Workload) (config : Config) : Play :=
  ((Session.ofTables (workload.freshTables config) ()).boot Actor.descriptor Actor.rootArgv).2

/-- Under valid budgets a session of a workload is opened. -/
theorem openSession_eq (workload : Workload) {config : Config}
    (valid : config.validate = .ok ()) :
    workload.openSession config = .ok (workload.opened config) := by
  unfold openSession Tables.new
  rw [valid]
  rfl

/-- A session can come to where it is opened. -/
theorem reached_opened (workload : Workload) {config : Config}
    (valid : config.validate = .ok ()) : Reached (behaviour Unit) (workload.opened config) := by
  -- A session is opened on fresh tables and the root is booted.
  have fresh : Tables.new config workload.programs.resolve false =
      .ok (workload.freshTables config) := by
    unfold Tables.new
    rw [valid]
    rfl
  exact .boots (.opens fresh ()) Actor.descriptor Actor.rootArgv

/-- An opened session is measured: nobody waits. -/
theorem measured_opened (workload : Workload) (config : Config) :
    Measured workload (workload.opened config) :=
  ⟨rfl, fun _ started => absurd started List.not_mem_nil⟩

end Workload

namespace Cast

open Workload

/-- The cast of an opened session: the first instance is there, and nothing was moved. -/
def first (sent : List Transmission) : Cast where
  nodes := [0]
  edges := []
  done := []
  left leg := some (payload sent leg.1)

variable {tree : SpawnTree} {sent : List Transmission} {config : Config}

/-- The first cast is coherent. -/
theorem coherent_first (suits : tree.Suits sent) : (first sent).Coherent tree sent where
  once := by simp [first]
  inside := by simp [first, SpawnTree.size]
  born := by
    intro position node parent placed under
    have zero := List.mem_of_getElem? placed
    rw [first, List.mem_singleton] at zero
    simp [zero, SpawnTree.parent?] at under
  wired := by simp [first]
  created := by simp [first]
  needed := by
    intro number transmission side node found member passes
    -- The root is below no node.
    obtain ⟨parent, under, -⟩ := SpawnTree.parent_mem_pathBelow suits.grown
      (meeting_mem suits (List.mem_of_getElem? found) side) passes
    rw [first, List.mem_singleton] at member
    simp [member, SpawnTree.parent?] at under
  untouched _ _ _ := rfl
  ended := by simp [first]

/-- The first cast fits the tables of an opened session, if the budgets are ample. -/
theorem fits_first (suits : tree.Suits sent) (valid : config.validate = .ok ())
    (ample : Ample tree sent ((ofTransmissions tree sent).opened config).tables) :
    (first sent).Fits tree sent ((ofTransmissions tree sent).opened config).tables where
  -- There is one node, one record, and one launch; nothing else is there to fit.
  sound := (reached_opened _ valid).orderly.sound
  ample := ample
  coherent := coherent_first suits
  pipes := ⟨rfl, fun served => by simp [first] at served⟩
  records := by
    refine ⟨rfl, fun placed there => ?_⟩
    have zero := List.mem_of_getElem? placed
    have root := List.mem_of_getElem? there
    change _ ∈ [(⟨.root, none, 0, .running, none⟩ : InstanceRecord)] at root
    rw [first, List.mem_singleton] at zero
    obtain rfl := List.mem_singleton.mp root
    subst zero
    exact ⟨(Nat.le_zero.mp (SpawnTree.depth_le suits.grown 0)).symm, fun _ => rfl,
      fun ended => by simp [first] at ended⟩
  starts := by
    intro launch waiting
    change launch ∈ [(⟨.root, ofTransmissions tree sent, Actor.rootArgv, []⟩ : Launch Workload)]
      at waiting
    obtain rfl := List.mem_singleton.mp waiting
    refine ⟨0, exists_plays suits (Nat.succ_pos _) rfl (by simp [first]) (fun _ served => ?_)
      (fun _ _ => by simp [first]) (fun child under => ?_) fun _ _ => rfl⟩
    · simp [first] at served
    · have positive := (SpawnTree.range_of_parent? under).1
      simp only [first, List.mem_singleton]
      omega

end Cast

end Progeny
