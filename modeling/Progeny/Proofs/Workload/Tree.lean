import Mathlib.Data.List.Nodup
import Progeny.Workload.Generate

/-! Trees whose nodes come after their parents: the way from a node to the root, the path from an
ancestor down to a node, and the order by generations. -/

namespace Progeny

namespace SpawnTree

/-- Every node comes after its parent. -/
def IsGrown (tree : SpawnTree) : Prop :=
  ∀ node parent, tree.parent? node = some parent → parent < node

/-- The number of generations between a node and the root. -/
def depth (tree : SpawnTree) (node : Nat) : Nat :=
  (tree.ancestry node).length - 1

variable {tree : SpawnTree}

/-- Only nodes of the tree have a parent, and the root has none. -/
theorem range_of_parent? {node parent : Nat} (child : tree.parent? node = some parent) :
    0 < node ∧ node < tree.size := by
  -- The parents are listed from the first node on, which has none itself.
  cases node with
  | zero => simp [parent?] at child
  | succ node =>
    have inside := (List.getElem?_eq_some_iff.mp child).1
    exact ⟨Nat.succ_pos node, Nat.succ_lt_succ inside⟩

/-- Every node but the root has a parent. -/
theorem exists_parent? {node : Nat} (positive : 0 < node) (inside : node < tree.size) :
    ∃ parent, tree.parent? node = some parent := by
  -- The parents are listed from the first node on, which has none itself.
  cases node with
  | zero => simp at positive
  | succ node =>
    exact ⟨_, List.getElem?_eq_getElem (Nat.lt_of_succ_lt_succ inside)⟩

/-- Children are the nodes with that parent. -/
theorem mem_children {node child : Nat} :
    child ∈ tree.children node ↔ tree.parent? child = some node := by
  -- A child is one more than the position of its parent in the list.
  simp only [children, List.mem_filterMap, Option.ite_none_right_eq_some, Option.some.injEq]
  constructor
  · rintro ⟨⟨parent, index⟩, member, rfl, rfl⟩
    exact List.mem_zipIdx_iff_getElem?.mp member
  · intro parent
    cases child with
    | zero => simp [parent?] at parent
    | succ index => exact ⟨(node, index), List.mem_zipIdx_iff_getElem?.mpr parent, rfl, rfl⟩

/-- No child is listed twice. -/
theorem nodup_children (tree : SpawnTree) (node : Nat) : (tree.children node).Nodup := by
  unfold children
  rw [List.nodup_iff_pairwise_ne, List.pairwise_filterMap]
  -- The positions of the parents tell the children apart.
  have positions : tree.parents.zipIdx.Pairwise fun one other => one.2 ≠ other.2 := by
    rw [← List.pairwise_map, ← List.nodup_iff_pairwise_ne, List.zipIdx_map_snd]
    exact List.nodup_range'
  refine positions.imp fun {one other} differ => ?_
  simp only [Option.ite_none_right_eq_some, Option.some.injEq]
  rintro _ ⟨-, rfl⟩ _ ⟨-, rfl⟩
  omega

/-- The way to the root begins with the node itself. -/
theorem self_mem_ancestry (tree : SpawnTree) (node : Nat) : node ∈ tree.ancestry node := by
  unfold ancestry
  split
  · simp
  · split <;> simp

section Grown

variable (grown : tree.IsGrown)
include grown

/-- The way from a child to the root goes on with that of its parent. -/
theorem ancestry_of_parent? {node parent : Nat} (child : tree.parent? node = some parent) :
    tree.ancestry node = node :: tree.ancestry parent := by
  rw [ancestry]
  simp [child, grown node parent child]

omit grown in
/-- The root is all there is on its way. -/
theorem ancestry_of_none {node : Nat} (top : tree.parent? node = none) :
    tree.ancestry node = [node] := by
  rw [ancestry]
  simp [top]

/-- Nodes can be reached from the root one generation after another. -/
theorem induction_on_parent {motive : Nat → Prop} (top : ∀ node, tree.parent? node = none →
    motive node) (child : ∀ node parent, tree.parent? node = some parent → motive parent →
    motive node) (node : Nat) : motive node := by
  -- A parent is less than its child.
  induction node using Nat.strongRecOn with
  | _ node earlier =>
    cases parent : tree.parent? node with
    | none => exact top node parent
    | some above => exact child node above parent (earlier above (grown node above parent))

/-- On the way to the root nodes descend. -/
theorem ancestry_sorted (node : Nat) :
    (tree.ancestry node).Pairwise (· > ·) ∧ ∀ other ∈ tree.ancestry node, other ≤ node := by
  -- Every step upwards leads to a lesser node.
  induction node using induction_on_parent grown with
  | top node none => simp [ancestry_of_none none]
  | child node parent above ih =>
    have less := grown node parent above
    rw [ancestry_of_parent? grown above]
    refine ⟨List.pairwise_cons.mpr ⟨fun other member => ?_, ih.1⟩, fun other member => ?_⟩
    · have := ih.2 other member
      omega
    · rcases List.mem_cons.mp member with rfl | later
      · exact Nat.le_refl _
      · have := ih.2 other later
        omega

/-- The way from a node of the tree leads to the root. -/
theorem zero_mem_ancestry {node : Nat} (inside : node < tree.size) : 0 ∈ tree.ancestry node := by
  -- The only node without a parent is the first one.
  induction node using induction_on_parent grown with
  | top node none =>
    have zero : node = 0 := by
      by_cases positive : 0 < node
      · obtain ⟨parent, some⟩ := exists_parent? positive inside
        simp [none] at some
      · omega
    exact zero ▸ tree.self_mem_ancestry node
  | child node parent above ih =>
    have less := grown node parent above
    rw [ancestry_of_parent? grown above]
    exact List.mem_cons_of_mem _ (ih (by omega))

/-- Of two nodes on the way from a third to the root, the lesser lies above the other. -/
theorem ancestry_chain {high middle low : Nat} (upper : high ∈ tree.ancestry low)
    (lower : middle ∈ tree.ancestry low) (above : high ≤ middle) : high ∈ tree.ancestry middle := by
  induction low using induction_on_parent grown with
  | top low none =>
    rw [ancestry_of_none none, List.mem_singleton] at upper lower
    exact upper ▸ lower ▸ tree.self_mem_ancestry _
  | child low parent under ih =>
    rw [ancestry_of_parent? grown under] at upper lower
    rcases List.mem_cons.mp lower with rfl | below
    · rwa [ancestry_of_parent? grown under]
    · rcases List.mem_cons.mp upper with rfl | further
      · -- Nothing on the way from the parent is as great as the node itself.
        have := (ancestry_sorted grown parent).2 middle below
        have := grown high parent under
        omega
      · exact ih further below

/-- A child is one generation below its parent. -/
theorem depth_of_parent? {node parent : Nat} (child : tree.parent? node = some parent) :
    tree.depth node = tree.depth parent + 1 := by
  have some := List.length_pos_of_mem (tree.self_mem_ancestry parent)
  simp only [depth, ancestry_of_parent? grown child, List.length_cons]
  omega

/-- No node is deeper than its number. -/
theorem depth_le (node : Nat) : tree.depth node ≤ node := by
  -- Every step upwards leads to a lesser node.
  induction node using induction_on_parent grown with
  | top node none => simp [depth, ancestry_of_none none]
  | child node parent above ih =>
    have less := grown node parent above
    have deeper := depth_of_parent? grown above
    omega

/-- Only the root is at depth zero. -/
theorem depth_pos {node : Nat} (positive : 0 < node) (inside : node < tree.size) :
    0 < tree.depth node := by
  obtain ⟨parent, child⟩ := exists_parent? positive inside
  rw [depth_of_parent? grown child]
  exact Nat.succ_pos _

/-- The common ancestor of two nodes lies above both. -/
theorem commonAncestor_mem {first second : Nat} (firstInside : first < tree.size)
    (secondInside : second < tree.size) :
    tree.commonAncestor first second ∈ tree.ancestry first ∧
      tree.commonAncestor first second ∈ tree.ancestry second := by
  unfold commonAncestor
  cases found : (tree.ancestry second).find? fun node => (tree.ancestry first).contains node with
  | none =>
    -- The root at least is on both ways.
    have missing := List.find?_eq_none.mp found 0 (zero_mem_ancestry grown secondInside)
    simp [zero_mem_ancestry grown firstInside] at missing
  | some node =>
    exact ⟨by simpa using List.find?_some found, List.mem_of_find?_eq_some found⟩

/-! The path from an ancestor, which is not part of it, down to a node, which is. -/

omit grown in
/-- The path from a node to itself is empty. -/
theorem pathBelow_self (tree : SpawnTree) (node : Nat) : tree.pathBelow node node = [] := by
  -- The path to a node from itself is empty, with or without a parent.
  unfold pathBelow
  cases parent : tree.parent? node with
  | none => simp [ancestry_of_none parent]
  | some above =>
    rw [ancestry]
    simp only [parent]
    split <;> simp

/-- The path to another node ends with that node and comes from its parent. -/
theorem pathBelow_of_ne {ancestor node : Nat} (above : ancestor ∈ tree.ancestry node)
    (differ : node ≠ ancestor) : ∃ parent, tree.parent? node = some parent ∧
      ancestor ∈ tree.ancestry parent ∧
      tree.pathBelow ancestor node = node :: tree.pathBelow ancestor parent := by
  -- A path that does not end here comes from the parent.
  cases parent : tree.parent? node with
  | none =>
    rw [ancestry_of_none parent, List.mem_singleton] at above
    exact absurd above.symm differ
  | some next =>
    rw [ancestry_of_parent? grown parent, List.mem_cons] at above
    refine ⟨next, rfl, above.resolve_left (Ne.symm differ), ?_⟩
    simp [pathBelow, ancestry_of_parent? grown parent, differ]

omit grown in
/-- A path is a part of the way to the root. -/
theorem ancestry_of_mem_pathBelow {ancestor node other : Nat}
    (member : other ∈ tree.pathBelow ancestor node) :
    other ∈ tree.ancestry node ∧ other ≠ ancestor := by
  have kept := List.all_eq_true.mp List.all_takeWhile other member
  exact ⟨(List.takeWhile_prefix _).subset member, by simpa using kept⟩

/-- No node is twice on a path. -/
theorem nodup_pathBelow (ancestor node : Nat) : (tree.pathBelow ancestor node).Nodup := by
  have sorted := (ancestry_sorted grown node).1.sublist
    (List.takeWhile_prefix (· ≠ ancestor)).sublist
  exact sorted.imp fun {one other} before => Nat.ne_of_gt before

/-- A path ends with its node, unless the node is the ancestor. -/
theorem end_mem_pathBelow {ancestor node : Nat} (above : ancestor ∈ tree.ancestry node) :
    node = ancestor ∨ node ∈ tree.pathBelow ancestor node := by
  -- Only an empty path does not contain its end.
  by_cases same : node = ancestor
  · exact .inl same
  · obtain ⟨parent, -, -, path⟩ := pathBelow_of_ne grown above same
    exact .inr (by simp [path])

/-- Before each node of a path stands its parent, or the ancestor does. -/
theorem parent_mem_pathBelow {ancestor node child : Nat} (above : ancestor ∈ tree.ancestry node)
    (member : child ∈ tree.pathBelow ancestor node) : ∃ parent,
      tree.parent? child = some parent ∧
        (parent = ancestor ∨ parent ∈ tree.pathBelow ancestor node) := by
  -- The path is followed upwards from its end.
  induction node using induction_on_parent grown with
  | top node none =>
    rw [ancestry_of_none none, List.mem_singleton] at above
    subst above
    simp [pathBelow_self] at member
  | child node next parent ih =>
    by_cases same : node = ancestor
    · subst same
      simp [pathBelow_self] at member
    · obtain ⟨_, again, below, path⟩ := pathBelow_of_ne grown above same
      obtain rfl := Option.some.inj (parent.symm.trans again)
      rw [path, List.mem_cons] at member
      rw [path]
      rcases member with rfl | later
      · refine ⟨next, parent, (end_mem_pathBelow grown below).imp_right ?_⟩
        exact List.mem_cons_of_mem _
      · obtain ⟨upper, child, place⟩ := ih below later
        exact ⟨upper, child, place.imp_right (List.mem_cons_of_mem _)⟩

/-- After each node on the way down stands one of its children, unless it is the last. -/
theorem child_mem_pathBelow {ancestor node upper : Nat} (above : ancestor ∈ tree.ancestry node)
    (place : upper = ancestor ∨ upper ∈ tree.pathBelow ancestor node) (differ : upper ≠ node) :
    ∃ child ∈ tree.pathBelow ancestor node, tree.parent? child = some upper := by
  -- The path is followed upwards from its end, until it comes from the upper node.
  induction node using induction_on_parent grown with
  | top node none =>
    rw [ancestry_of_none none, List.mem_singleton] at above
    subst above
    simp [pathBelow_self, differ] at place
  | child node next parent ih =>
    by_cases same : node = ancestor
    · subst same
      simp [pathBelow_self, differ] at place
    · obtain ⟨_, again, below, path⟩ := pathBelow_of_ne grown above same
      obtain rfl := Option.some.inj (parent.symm.trans again)
      rw [path] at place ⊢
      by_cases last : upper = next
      · exact ⟨node, by simp, last ▸ parent⟩
      · have further : upper = ancestor ∨ upper ∈ tree.pathBelow ancestor next :=
          place.imp_right fun member => (List.mem_cons.mp member).resolve_left differ
        obtain ⟨child, member, under⟩ := ih below further last
        exact ⟨child, List.mem_cons_of_mem _ member, under⟩

/-- A path goes through one child of a node at most. -/
theorem eq_of_mem_pathBelow {ancestor node one other upper : Nat}
    (above : ancestor ∈ tree.ancestry node) (first : one ∈ tree.pathBelow ancestor node)
    (second : other ∈ tree.pathBelow ancestor node) (firstChild : tree.parent? one = some upper)
    (secondChild : tree.parent? other = some upper) : one = other := by
  induction node using induction_on_parent grown with
  | top node none =>
    rw [ancestry_of_none none, List.mem_singleton] at above
    subst above
    simp [pathBelow_self] at first
  | child node next parent ih =>
    by_cases same : node = ancestor
    · subst same
      simp [pathBelow_self] at first
    · obtain ⟨_, again, below, path⟩ := pathBelow_of_ne grown above same
      obtain rfl := Option.some.inj (parent.symm.trans again)
      -- Every node further up is at most the parent of the last one, and so is no child of it.
      have apart {child : Nat} (member : child ∈ tree.pathBelow ancestor next)
          (under : tree.parent? child = some next) : False := by
        have := (ancestry_sorted grown next).2 child (ancestry_of_mem_pathBelow member).1
        have := grown child next under
        omega
      rw [path, List.mem_cons] at first second
      rcases first with rfl | first <;> rcases second with rfl | second
      · rfl
      · obtain rfl := Option.some.inj (parent.symm.trans firstChild)
        exact (apart second secondChild).elim
      · obtain rfl := Option.some.inj (parent.symm.trans secondChild)
        exact (apart first firstChild).elim
      · exact ih below first second

/-! The order by generations. -/

/-- The children of all nodes at some depth are all nodes one generation below. -/
theorem generation_succ {generation : List Nat} {level : Nat} (once : generation.Nodup)
    (members : ∀ node, node ∈ generation ↔ node < tree.size ∧ tree.depth node = level) :
    (generation.flatMap tree.children).Nodup ∧ ∀ node,
      node ∈ generation.flatMap tree.children ↔
        node < tree.size ∧ tree.depth node = level + 1 := by
  -- Children of different nodes differ, and they are one level deeper.
  constructor
  · refine List.nodup_flatMap.mpr ⟨fun node _ => tree.nodup_children node, ?_⟩
    refine once.imp fun {one other} differ => ?_
    intro child first second
    rw [mem_children] at first second
    exact differ (Option.some.inj (first.symm.trans second))
  · intro node
    simp only [List.mem_flatMap, mem_children, members]
    constructor
    · rintro ⟨parent, ⟨-, level⟩, child⟩
      exact ⟨(range_of_parent? child).2, by rw [depth_of_parent? grown child, level]⟩
    · rintro ⟨inside, level⟩
      have positive : 0 < node := by
        by_contra zero
        have := depth_le grown node
        omega
      obtain ⟨parent, child⟩ := exists_parent? positive inside
      have less := grown node parent child
      have deeper := depth_of_parent? grown child
      exact ⟨parent, ⟨by omega, by omega⟩, child⟩

/-- Some generations below a depth hold all nodes that are not deeper still. -/
theorem mem_generations {generation : List Nat} {level : Nat} (count : Nat)
    (once : generation.Nodup)
    (members : ∀ node, node ∈ generation ↔ node < tree.size ∧ tree.depth node = level) :
    (tree.generations count generation).Nodup ∧ ∀ node,
      node ∈ tree.generations count generation ↔
        node < tree.size ∧ level < tree.depth node ∧ tree.depth node ≤ level + count := by
  -- The next generation comes first, and deeper ones follow.
  induction count generalizing generation level with
  | zero =>
    simp only [generations, List.nodup_nil, List.not_mem_nil, false_iff, true_and]
    omega
  | succ count ih =>
    obtain ⟨nextOnce, nextMembers⟩ := generation_succ grown once members
    obtain ⟨restOnce, restMembers⟩ := ih nextOnce nextMembers
    simp only [generations]
    refine ⟨List.nodup_append.mpr ⟨nextOnce, restOnce, fun one here other there same => ?_⟩,
      fun node => ?_⟩
    · have := (nextMembers one).mp here
      have := (restMembers other).mp there
      subst same
      omega
    · rw [List.mem_append, nextMembers, restMembers]
      omega

/-- The first generation is the root. -/
theorem mem_first_generation (node : Nat) :
    node ∈ [0] ↔ node < tree.size ∧ tree.depth node = 0 := by
  rw [List.mem_singleton]
  constructor
  · rintro rfl
    exact ⟨Nat.succ_pos _, Nat.le_zero.mp (depth_le grown 0)⟩
  · rintro ⟨inside, level⟩
    by_contra positive
    have := depth_pos grown (Nat.pos_of_ne_zero positive) inside
    omega

/-- The order by generations holds every node but the root, and each of them once. -/
theorem mem_breadthFirst : tree.breadthFirst.Nodup ∧
    ∀ node, node ∈ tree.breadthFirst ↔ 0 < node ∧ node < tree.size := by
  -- The first generation is the root, and no node is deeper than there are nodes.
  obtain ⟨once, members⟩ := mem_generations grown tree.size (by simp) (mem_first_generation grown)
  refine ⟨once, fun node => ?_⟩
  unfold breadthFirst
  rw [members]
  have shallow := depth_le grown node
  constructor
  · rintro ⟨inside, deep, -⟩
    omega
  · rintro ⟨positive, inside⟩
    have := depth_pos grown positive inside
    omega

end Grown

end SpawnTree

end Progeny
