import Progeny.Random.Draw
import Progeny.Workload.Basic
import Progeny.Workload.Reach

/-! Random workloads: a random tree, acyclic random writes, and for each write a pipe that is
created where the paths to its writer and its reader part and is handed down both of them. -/

namespace Progeny

/-- A tree of nodes 0, 1, 2 and so on, rooted at 0: the parent of every other node in order. -/
structure SpawnTree where
  parents : List Nat

namespace SpawnTree

/-- The number of nodes. -/
def size (tree : SpawnTree) : Nat :=
  tree.parents.length + 1

/-- The parent of a node other than the root. -/
def parent? (tree : SpawnTree) : Nat → Option Nat
  | 0 => none
  | node + 1 => tree.parents[node]?

/-- The children of a node in ascending order. -/
def children (tree : SpawnTree) (node : Nat) : List Nat :=
  tree.parents.zipIdx.filterMap fun (parent, index) =>
    if parent = node then some (index + 1) else none

/-- The nodes from a node up to the root. A parent is a lesser node, so the way ends. -/
def ancestry (tree : SpawnTree) (node : Nat) : List Nat :=
  match tree.parent? node with
  | none => [node]
  | some parent => if parent < node then node :: tree.ancestry parent else [node]
termination_by node

/-- The nodes below a generation, one generation after another. -/
def generations (tree : SpawnTree) : Nat → List Nat → List Nat
  | 0, _ => []
  | depth + 1, generation =>
    let next := generation.flatMap tree.children
    next ++ tree.generations depth next

/-- The nodes below the root in an order in which parents come before their children. A tree has
no more generations than nodes. -/
def breadthFirst (tree : SpawnTree) : List Nat :=
  tree.generations tree.size [0]

/-- The lowest node above or at both of two nodes. -/
def commonAncestor (tree : SpawnTree) (first second : Nat) : Nat :=
  ((tree.ancestry second).find? fun node => (tree.ancestry first).contains node).getD 0

/-- The nodes from a node up to but not including one of its ancestors. -/
def pathBelow (tree : SpawnTree) (ancestor node : Nat) : List Nat :=
  (tree.ancestry node).takeWhile (· ≠ ancestor)

end SpawnTree

/-- A write between two nodes with its payload. -/
structure Transmission where
  writer : Nat
  reader : Nat
  data : Bytes

namespace Transmission

/-- The number of the pipe end that the reader of a numbered transmission uses. -/
def readerPipe (number : Nat) : UInt64 :=
  UInt64.ofNat (2 * number)

/-- The number of the pipe end that the writer of a numbered transmission uses. -/
def writerPipe (number : Nat) : UInt64 :=
  UInt64.ofNat (2 * number + 1)

/-- The write of a numbered transmission. -/
def writePlan (number : Nat) (sent : Transmission) : WritePlan :=
  ⟨UInt64.ofNat sent.writer, writerPipe number, UInt64.ofNat sent.reader, readerPipe number,
    sent.data⟩

/-- The creation of the pipe of a numbered transmission. -/
def pipePlan (tree : SpawnTree) (number : Nat) (sent : Transmission) : PipePlan :=
  ⟨UInt64.ofNat (tree.commonAncestor sent.writer sent.reader), readerPipe number,
    writerPipe number⟩

/-- The nodes that are handed an end of the pipe of a numbered transmission, each with the number
of the end: first those down to the writer, then those down to the reader. -/
def handovers (tree : SpawnTree) (number : Nat) (sent : Transmission) : List (Nat × UInt64) :=
  let ancestor := tree.commonAncestor sent.writer sent.reader
  (tree.pathBelow ancestor sent.writer).map (·, writerPipe number) ++
    (tree.pathBelow ancestor sent.reader).map (·, readerPipe number)

end Transmission

namespace Workload

/-- Draws the parents of a number of nodes that follow `count` others. -/
def drawParents (fuel : Nat) : Nat → Nat → Draw (List Nat)
  | _, 0 => return []
  | count, more + 1 => do
    let parent ← Draw.below count fuel
    let rest ← drawParents fuel (count + 1) more
    return parent :: rest

/-- Makes a number of attempts to draw an edge that closes no cycle with others. -/
def drawEdge (fuel nodes : Nat) (edges : Edges) : Nat → Draw (Option (Nat × Nat))
  | 0 => return none
  | attempts + 1 => do
    let writer ← Draw.below nodes fuel
    let reader ← Draw.belowExcept nodes writer fuel fuel
    -- Where the reader already leads to the writer, the edge would close a cycle.
    if edges.reaches reader writer then drawEdge fuel nodes edges attempts
    else return some (writer, reader)

/-- Draws further edges one by one, and stops at the first for which all attempts fail. -/
def drawEdges (fuel nodes attempts : Nat) : Nat → Edges → Draw Edges
  | 0, edges => return edges
  | more + 1, edges => do
    match ← drawEdge fuel nodes edges attempts with
    | none => return edges
    | some edge => drawEdges fuel nodes attempts more (edges ++ [edge])

/-- The most bytes that are sent at once. -/
def payloadLimit : Nat := 1024

/-- Draws a payload of at least one byte for each edge. -/
def drawPayloads (fuel : Nat) : Edges → Draw (List Transmission)
  | [] => return []
  | (writer, reader) :: rest => do
    let length ← Draw.below payloadLimit fuel
    let data ← Draw.bytes (length + 1)
    let rest ← drawPayloads fuel rest
    return ⟨writer, reader, data⟩ :: rest

/-- The workload of a tree and transmissions over it. -/
def ofTransmissions (tree : SpawnTree) (sent : List Transmission) : Workload :=
  let handovers := (sent.mapIdx fun number sent => sent.handovers tree number).flatten
  -- A child is handed the ends that pass it, in the order of their transmissions.
  { spawns := tree.breadthFirst.filterMap fun child =>
      (tree.parent? child).map fun parent =>
        ⟨UInt64.ofNat parent, UInt64.ofNat child,
          (handovers.filter fun handover => handover.1 = child).map Prod.snd⟩
    pipes := (sent.mapIdx fun number sent => sent.pipePlan tree number).mergeSort
      fun first second => first.creator ≤ second.creator
    writes := sent.mapIdx fun number sent => sent.writePlan number }

/-- Draws a workload with a number of spawns and at most a number of writes. A single instance
has nobody to write to. -/
def draw (fuel spawns writes attempts : Nat) : Draw Workload := do
  let tree : SpawnTree := ⟨← drawParents fuel 1 spawns⟩
  let edges ← if spawns = 0 then pure [] else drawEdges fuel (spawns + 1) attempts writes []
  return ofTransmissions tree (← drawPayloads fuel edges)

/-- The workload of a seed. There is none if some loop that rejects what it draws would take more
than `fuel` rounds. -/
def generate (fuel : Nat) (seed : UInt64) (spawns writes attempts : UInt32) : Option Workload :=
  (draw fuel spawns.toNat writes.toNat attempts.toNat (RandomStream.ofSeed seed)).map Prod.fst

end Workload

end Progeny
