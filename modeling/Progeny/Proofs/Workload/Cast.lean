import Progeny.Proofs.Session.Undisturbed
import Progeny.Proofs.Workload.Routes

/-! Who plays which node of a workload, and how far everybody has come: what the tables do not tell,
and how it fits what they do tell. -/

namespace Progeny

open Workload

/-- The nodes that instances play, the transmissions that pipes serve, the nodes that are over, and
what the ends of every transmission have yet to move. -/
structure Cast where
  /-- The node of each instance. -/
  nodes : List Nat
  /-- The transmission of each pipe. -/
  edges : List Nat
  /-- The nodes whose instances have exited. -/
  done : List Nat
  /-- The bytes that an end has yet to move, unless it is closed. -/
  left : Leg → Option Bytes

namespace Cast

/-- A node has an end of a transmission: the end came by, and no node further down has it. -/
structure Keeps (tree : SpawnTree) (cast : Cast) (transmission : Transmission) (side : Side)
    (node : Nat) : Prop where
  present : node ∈ cast.nodes
  passed : node = transmission.meeting tree ∨ transmission.Passes tree side node
  last : ∀ child, transmission.Passes tree side child → tree.parent? child = some node →
    child ∉ cast.nodes

/-- Nodes come after their parents, pipes come with the nodes that need them, and only who takes
part in a transmission moves its bytes. -/
structure Coherent (tree : SpawnTree) (sent : List Transmission) (cast : Cast) : Prop where
  once : cast.nodes.Nodup
  inside : ∀ node ∈ cast.nodes, node < tree.size
  born : ∀ {position node parent : Nat}, cast.nodes[position]? = some node →
    tree.parent? node = some parent →
      ∃ earlier, earlier < position ∧ cast.nodes[earlier]? = some parent
  wired : cast.edges.Nodup
  created : ∀ {number : Nat}, number ∈ cast.edges →
    ∃ transmission, sent[number]? = some transmission ∧ transmission.meeting tree ∈ cast.nodes
  needed : ∀ {number : Nat} {transmission : Transmission} {side : Side} {node : Nat},
    sent[number]? = some transmission → node ∈ cast.nodes → transmission.Passes tree side node →
      number ∈ cast.edges
  untouched : ∀ {number : Nat} {transmission : Transmission} (side : Side),
    sent[number]? = some transmission →
      number ∉ cast.edges ∨ transmission.target side ∉ cast.nodes →
        cast.left (number, side) = some (payload sent number)
  ended : ∀ node ∈ cast.done, node ∈ cast.nodes ∧
    (∀ child, tree.parent? child = some node → child ∈ cast.done) ∧
    ∀ leg ∈ legsOf sent node, cast.left leg = none

/-- The pipe of a transmission is held by those who have its ends, and its queue has whatever the
reader has yet to get beyond what the writer has yet to send. -/
structure PipeFits (tree : SpawnTree) (cast : Cast) (number : Nat) (transmission : Transmission)
    (pipe : Pipe) : Prop where
  isOpen : ∀ side, (pipe.on side).isOpen = (cast.left (number, side)).isSome
  holder : ∀ side, (pipe.on side).isOpen = true → ∃ node,
    cast.nodes[(pipe.on side).owner.word.toNat]? = some node ∧
      cast.Keeps tree transmission side node
  stream : ∀ rest, cast.left (number, .first) = some rest →
    rest = (pipe.on .first).inbound ++ (cast.left (number, .second)).getD []
  dry : cast.left (number, .first) = none → (cast.left (number, .second)).getD [] = []

/-- The record of an instance tells whether its node is over. -/
structure RecordFits (tree : SpawnTree) (cast : Cast) (node : Nat) (record : InstanceRecord) :
    Prop where
  depth : record.depth.toNat = tree.depth node
  running : node ∉ cast.done → record.state = .running
  exited : node ∈ cast.done → record.state = .exited 0 ∧ record.fault = none

/-- What an instance is about. -/
inductive Pursuit where
  /-- It is to choose what to do. -/
  | choice
  /-- It moves the rest of some bytes. -/
  | move (leg : Leg) (endpoint : Endpoint) (rest : Bytes)
  /-- It waits for the exit of a child. -/
  | join (child : InstanceId)

/-- The leg that an instance is about. -/
def Pursuit.legs : Pursuit → List Leg
  | .move leg _ _ => [leg]
  | .choice | .join _ => []

/-- An instance has yet to do what its node has yet to do. -/
structure Plays (tree : SpawnTree) (sent : List Transmission) (cast : Cast) (id : InstanceId)
    (node : Nat) (pursuit : Pursuit) (actor : Actor) : Prop where
  place : cast.nodes[id.word.toNat]? = some node
  alive : node ∉ cast.done
  code : actor.code = 0
  held : ∀ {number : Nat} {transmission : Transmission} {side : Side},
    sent[number]? = some transmission → number ∈ cast.edges →
      cast.Keeps tree transmission side node → cast.left (number, side) ≠ none →
        ∃ endpoint, actor.held.find? (Transmission.pipeNumber number side) = some endpoint ∧
          cast.edges[endpoint.index]? = some number ∧ endpoint.side = side
  pipesOnce : actor.pipes.Nodup
  pipes : ∀ plan, plan ∈ actor.pipes ↔ ∃ (number : Nat) (transmission : Transmission),
    sent[number]? = some transmission ∧ transmission.meeting tree = node ∧
      plan = transmission.pipePlan tree number ∧ number ∉ cast.edges
  spawnsOnce : actor.spawns.Nodup
  spawns : ∀ plan, plan ∈ actor.spawns ↔ ∃ child, tree.parent? child = some node ∧
    plan = spawnPlan tree sent node child ∧ child ∉ cast.nodes
  transfers : ∃ past future, legsOf sent node = past ++ (pursuit.legs ++ future) ∧
    actor.transfers = future.map (transfer sent) ∧ (∀ leg ∈ past, cast.left leg = none) ∧
      ∀ leg ∈ future, cast.left leg = some (payload sent leg.1)
  moves : ∀ leg endpoint rest, pursuit = .move leg endpoint rest → cast.left leg = some rest ∧
    cast.edges[endpoint.index]? = some leg.1 ∧ endpoint.side = leg.2
  children : ∀ child, tree.parent? child = some node → child ∈ cast.nodes → child ∈ cast.done ∨
    ∃ other : InstanceId, cast.nodes[other.word.toNat]? = some child ∧
      (other ∈ actor.children ∨ pursuit = .join other)
  joined : ∀ other : InstanceId, other ∈ actor.children ∨ pursuit = .join other →
    ∃ child, tree.parent? child = some node ∧ cast.nodes[other.word.toNat]? = some child

/-- Between two states one node has acted: it may have got children, created pipes for what meets in
it, moved bytes of its own, and come to its end. -/
structure Spares (tree : SpawnTree) (sent : List Transmission) (node : Nat) (before after : Cast) :
    Prop where
  nodes : ∃ new, after.nodes = before.nodes ++ new ∧
    ∀ child ∈ new, tree.parent? child = some node
  edges : ∃ new, after.edges = before.edges ++ new ∧ ∀ number ∈ new, ∀ transmission,
    sent[number]? = some transmission → transmission.meeting tree = node
  done : ∀ other, other ≠ node → (other ∈ after.done ↔ other ∈ before.done)
  still : ∀ other ∈ before.done, other ∈ after.done
  left : ∀ leg, leg ∉ legsOf sent node → after.left leg = before.left leg
  closed : ∀ leg, before.left leg = none → after.left leg = none

variable {tree : SpawnTree} {sent : List Transmission} {cast after : Cast}

namespace Spares

variable {node : Nat}

/-- A node that does nothing spares everybody. -/
theorem refl (tree : SpawnTree) (sent : List Transmission) (node : Nat) (cast : Cast) :
    Spares tree sent node cast cast :=
  ⟨⟨[], by simp, by simp⟩, ⟨[], by simp, by simp⟩, fun _ _ => Iff.rfl, fun _ => id, fun _ _ => rfl,
    fun _ => id⟩

/-- A node that acts twice spares whoever it spares both times. -/
theorem trans {middle : Cast} (first : Spares tree sent node cast middle)
    (second : Spares tree sent node middle after) : Spares tree sent node cast after where
  -- New nodes are children of the same node both times.
  nodes := by
    obtain ⟨new, same, children⟩ := first.nodes
    obtain ⟨newer, sameToo, childrenToo⟩ := second.nodes
    refine ⟨new ++ newer, by rw [sameToo, same, List.append_assoc], fun child member => ?_⟩
    exact (List.mem_append.mp member).elim (children child) (childrenToo child)
  edges := by
    obtain ⟨new, same, meets⟩ := first.edges
    obtain ⟨newer, sameToo, meetsToo⟩ := second.edges
    refine ⟨new ++ newer, by rw [sameToo, same, List.append_assoc], fun number member => ?_⟩
    exact (List.mem_append.mp member).elim (meets number) (meetsToo number)
  done other differ := (second.done other differ).trans (first.done other differ)
  still other ended := second.still other (first.still other ended)
  left leg other := (second.left leg other).trans (first.left leg other)
  closed leg gone := second.closed leg (first.closed leg gone)

/-- Instances keep their nodes. -/
theorem place (spares : Spares tree sent node cast after) {position other : Nat}
    (placed : cast.nodes[position]? = some other) : after.nodes[position]? = some other := by
  obtain ⟨new, same, -⟩ := spares.nodes
  rw [same, List.getElem?_append_left (List.getElem?_eq_some_iff.mp placed).1, placed]

/-- Pipes keep their transmissions. -/
theorem serves (spares : Spares tree sent node cast after) {position number : Nat}
    (served : cast.edges[position]? = some number) : after.edges[position]? = some number := by
  obtain ⟨new, same, -⟩ := spares.edges
  rw [same, List.getElem?_append_left (List.getElem?_eq_some_iff.mp served).1, served]

/-- New pipes are for what meets in the node that acted. -/
theorem mem_edges (spares : Spares tree sent node cast after) {number : Nat}
    {transmission : Transmission} (found : sent[number]? = some transmission)
    (meeting : transmission.meeting tree ≠ node) :
    number ∈ after.edges ↔ number ∈ cast.edges := by
  obtain ⟨new, edges, meets⟩ := spares.edges
  rw [edges, List.mem_append]
  refine ⟨fun either => either.resolve_right fun created => meeting ?_, .inl⟩
  exact meets number created _ found

/-- New nodes are children of the node that acted. -/
theorem mem_nodes (spares : Spares tree sent node cast after) {child other : Nat}
    (differ : other ≠ node) (under : tree.parent? child = some other) :
    child ∈ after.nodes ↔ child ∈ cast.nodes := by
  obtain ⟨new, nodes, children⟩ := spares.nodes
  rw [nodes, List.mem_append]
  refine ⟨fun either => either.resolve_right fun entered => differ ?_, .inl⟩
  exact Option.some.inj (under.symm.trans (children child entered))

/-- The legs of a node are moved by nobody else. -/
theorem left_of_mem (spares : Spares tree sent node cast after) {other : Nat}
    (differ : other ≠ node) {leg : Leg} (own : leg ∈ legsOf sent other) :
    after.left leg = cast.left leg := by
  refine spares.left leg fun foreign => differ ?_
  obtain ⟨transmission, found, target⟩ := mem_legsOf.mp own
  obtain ⟨again, foundToo, targetToo⟩ := mem_legsOf.mp foreign
  obtain rfl := Option.some.inj (found.symm.trans foundToo)
  exact target.symm.trans targetToo

end Spares

/-- No two instances play one node. -/
theorem Coherent.place_inj (coherent : cast.Coherent tree sent) {one other node : Nat}
    (first : cast.nodes[one]? = some node) (second : cast.nodes[other]? = some node) :
    one = other := by
  obtain ⟨inside, same⟩ := List.getElem?_eq_some_iff.mp first
  obtain ⟨insideToo, sameToo⟩ := List.getElem?_eq_some_iff.mp second
  exact (coherent.once.getElem_inj_iff).mp (same.trans sameToo.symm)

/-- The way from a node that is played to the root is played. -/
theorem Coherent.ancestry (coherent : cast.Coherent tree sent) (grown : tree.IsGrown)
    {node above : Nat} (present : node ∈ cast.nodes) (higher : above ∈ tree.ancestry node) :
    above ∈ cast.nodes := by
  -- A node that has begun has a parent that began before it.
  induction node using SpawnTree.induction_on_parent grown with
  | top node none =>
    rw [SpawnTree.ancestry_of_none none, List.mem_singleton] at higher
    exact higher ▸ present
  | child node parent under ih =>
    rw [SpawnTree.ancestry_of_parent? grown under] at higher
    rcases List.mem_cons.mp higher with rfl | further
    · exact present
    · obtain ⟨position, placed⟩ := List.mem_iff_getElem?.mp present
      obtain ⟨earlier, -, there⟩ := coherent.born placed under
      exact ih (List.mem_of_getElem? there) further

/-- Who has an end has it as long as nobody else enters. -/
theorem Keeps.of_nodes {transmission : Transmission} {side : Side} {node : Nat}
    (keeps : cast.Keeps tree transmission side node) (same : after.nodes = cast.nodes) :
    after.Keeps tree transmission side node :=
  ⟨same ▸ keeps.present, keeps.passed, same ▸ keeps.last⟩

/-- What an end comes by lies between its user and the root. -/
theorem ancestry_of_passed (suits : tree.Suits sent) {number : Nat} {transmission : Transmission}
    (found : sent[number]? = some transmission) {side : Side} {node : Nat}
    (passed : node = transmission.meeting tree ∨ transmission.Passes tree side node) :
    node ∈ tree.ancestry (transmission.target side) := by
  -- Where a handle meets or passes is on the way to its target.
  rcases passed with rfl | passes
  · exact meeting_mem suits (List.mem_of_getElem? found) side
  · exact (SpawnTree.ancestry_of_mem_pathBelow passes).1

/-- One node at most has an end. -/
theorem Keeps.unique (suits : tree.Suits sent) (coherent : cast.Coherent tree sent) {number : Nat}
    {transmission : Transmission} (found : sent[number]? = some transmission) {side : Side}
    {one other : Nat} (first : cast.Keeps tree transmission side one)
    (second : cast.Keeps tree transmission side other) : one = other := by
  -- If one of them lies above the other, the next node on the way down is played.
  have ordered {high low : Nat} (upper : cast.Keeps tree transmission side high)
      (lower : cast.Keeps tree transmission side low) : ¬high < low := by
    intro above
    have highOn := ancestry_of_passed suits found upper.passed
    have lowOn := ancestry_of_passed suits found lower.passed
    have lowest := (SpawnTree.ancestry_sorted suits.grown _).2 low lowOn
    obtain ⟨child, passes, under⟩ := SpawnTree.child_mem_pathBelow suits.grown
      (meeting_mem suits (List.mem_of_getElem? found) side) upper.passed (by omega)
    have childOn := ancestry_of_passed suits found (Or.inr passes)
    have less := suits.grown child high under
    refine upper.last child passes under ?_
    rcases Nat.le_total child low with atMost | beyond
    · exact coherent.ancestry suits.grown lower.present
        (SpawnTree.ancestry_chain suits.grown childOn lowOn atMost)
    · have between := SpawnTree.ancestry_chain suits.grown lowOn childOn beyond
      rw [SpawnTree.ancestry_of_parent? suits.grown under] at between
      rcases List.mem_cons.mp between with rfl | higher
      · exact lower.present
      · have := (SpawnTree.ancestry_sorted suits.grown high).2 low higher
        omega
  have := ordered first second
  have := ordered second first
  omega

/-- What one node does leaves all that an instance of another has yet to do. -/
theorem Plays.spared (coherent : cast.Coherent tree sent) {id : InstanceId} {node other : Nat}
    {pursuit : Pursuit} {actor : Actor} (plays : cast.Plays tree sent id other pursuit actor)
    (spares : Spares tree sent node cast after) (differ : other ≠ node) :
    after.Plays tree sent id other pursuit actor := by
  have present : other ∈ cast.nodes := List.mem_of_getElem? plays.place
  obtain ⟨past, future, legs, transfers, closed, fresh⟩ := plays.transfers
  refine ⟨spares.place plays.place, fun ended => plays.alive ((spares.done other differ).mp ended),
    plays.code, ?_, plays.pipesOnce, ?_, plays.spawnsOnce, ?_, ?_, ?_, ?_, ?_⟩
  · intro number transmission side found served keeps opened
    have before : cast.Keeps tree transmission side other :=
      ⟨present, keeps.passed, fun child passes under missing =>
        keeps.last child passes under ((spares.mem_nodes differ under).mpr missing)⟩
    have servedBefore : number ∈ cast.edges := by
      rcases keeps.passed with rfl | passes
      · exact (spares.mem_edges found differ).mp served
      · exact coherent.needed found present passes
    obtain ⟨endpoint, known, serves, side'⟩ := plays.held found servedBefore before
      fun gone => opened (spares.closed _ gone)
    exact ⟨endpoint, known, spares.serves serves, side'⟩
  · intro plan
    rw [plays.pipes]
    refine exists_congr fun number => exists_congr fun transmission => ?_
    refine and_congr_right fun found => and_congr_right fun meeting => and_congr_right fun _ => ?_
    exact not_congr (spares.mem_edges found (meeting ▸ differ)).symm
  · intro plan
    rw [plays.spawns]
    refine exists_congr fun child => and_congr_right fun under => and_congr_right fun _ => ?_
    exact not_congr (spares.mem_nodes differ under).symm
  · refine ⟨past, future, legs, transfers, fun leg member => ?_, fun leg member => ?_⟩
    · rw [spares.left_of_mem differ (by simp [legs, member])]
      exact closed leg member
    · rw [spares.left_of_mem differ (by simp [legs, member])]
      exact fresh leg member
  · intro leg endpoint rest moving
    obtain ⟨left, serves, side⟩ := plays.moves leg endpoint rest moving
    refine ⟨?_, spares.serves serves, side⟩
    rw [spares.left_of_mem differ (by simp [legs, moving, Pursuit.legs])]
    exact left
  · intro child under there
    have before := plays.children child under ((spares.mem_nodes differ under).mp there)
    refine before.imp (spares.still child) ?_
    exact fun ⟨instance', placed, listed⟩ => ⟨instance', spares.place placed, listed⟩
  · intro instance' listed
    obtain ⟨child, under, placed⟩ := plays.joined instance' listed
    exact ⟨child, under, spares.place placed⟩

end Cast

end Progeny
