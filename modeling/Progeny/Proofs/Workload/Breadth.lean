import Progeny.Proofs.Workload.Tree

/-! The order by generations: the first node and then the children of each node listed so far, node
by node, so that the tree is listed generation after generation. -/

namespace Progeny

/-- Nodes of a list without repetition stand in one order only. -/
theorem not_sublist_of_nodup {α : Type} {items : List α} {one other : α} (once : items.Nodup)
    (order : [one, other].Sublist items) : ¬[other, one].Sublist items := by
  induction items with
  | nil => simp at order
  | cons first rest ih =>
    obtain ⟨new, restOnce⟩ := List.nodup_cons.mp once
    intro reverse
    -- Who comes first in the list comes first in one of the two orders, and nowhere later.
    cases order with
    | cons _ within =>
      cases reverse with
      | cons _ reverse => exact ih restOnce within reverse
      | cons_cons _ _ => exact new (within.subset (by simp))
    | cons_cons _ last =>
      cases reverse with
      | cons _ reverse => exact new (reverse.subset (by simp))
      | cons_cons _ _ => exact new (last.subset (by simp))

namespace SpawnTree

variable {tree : SpawnTree}

/-- Children are listed in ascending order. -/
theorem children_sorted (tree : SpawnTree) (node : Nat) :
    (tree.children node).Pairwise (· < ·) := by
  unfold children
  rw [List.pairwise_filterMap]
  -- A child is one more than the position of its parent.
  have positions : tree.parents.zipIdx.Pairwise fun one other => one.2 < other.2 := by
    rw [← List.pairwise_map, List.zipIdx_map_snd]
    exact List.pairwise_lt_range'
  refine positions.imp fun {one other} before => ?_
  simp only [Option.ite_none_right_eq_some, Option.some.injEq]
  rintro _ ⟨-, rfl⟩ _ ⟨-, rfl⟩
  omega

section Grown

variable (grown : tree.IsGrown)
include grown

/-- Where no nodes are deeper than the generations listed, these are the children of the nodes
before them, node by node. -/
theorem generations_eq_flatMap {generation : List Nat} {level count : Nat}
    (once : generation.Nodup)
    (members : ∀ node, node ∈ generation ↔ node < tree.size ∧ tree.depth node = level)
    (shallow : ∀ node < tree.size, tree.depth node ≤ level + count) :
    tree.generations count generation =
      (generation ++ tree.generations count generation).flatMap tree.children := by
  -- The children of a generation are the next one, and those of all later ones follow.
  induction count generalizing generation level with
  | zero =>
    obtain ⟨-, next⟩ := generation_succ grown once members
    have none : generation.flatMap tree.children = [] := by
      refine List.eq_nil_iff_forall_not_mem.mpr fun node member => ?_
      obtain ⟨inside, deep⟩ := (next node).mp member
      have := shallow node inside
      omega
    simpa [generations] using none.symm
  | succ count ih =>
    obtain ⟨nextOnce, next⟩ := generation_succ grown once members
    have rest := ih nextOnce next fun node inside => by
      have := shallow node inside
      omega
    simp only [generations]
    rw [List.flatMap_append, ← rest]

/-- Below the root stand its children and then the children of each node listed, node by node. -/
theorem breadthFirst_eq_flatMap :
    tree.breadthFirst = (0 :: tree.breadthFirst).flatMap tree.children := by
  refine generations_eq_flatMap grown (by simp) (mem_first_generation grown) fun node inside => ?_
  have := depth_le grown node
  omega

/-- No node stands behind a deeper one among some generations. -/
theorem generations_sorted {generation : List Nat} {level : Nat} (count : Nat)
    (once : generation.Nodup)
    (members : ∀ node, node ∈ generation ↔ node < tree.size ∧ tree.depth node = level) :
    (tree.generations count generation).Pairwise fun one other =>
      tree.depth one ≤ tree.depth other := by
  -- The next generation is of one depth, and later ones are deeper.
  induction count generalizing generation level with
  | zero => exact .nil
  | succ count ih =>
    obtain ⟨nextOnce, next⟩ := generation_succ grown once members
    obtain ⟨-, rest⟩ := mem_generations grown count nextOnce next
    simp only [generations]
    refine List.pairwise_append.mpr ⟨?_, ih nextOnce next, fun one here other there => ?_⟩
    · refine List.pairwise_of_forall_mem_list fun one here other there => ?_
      exact Nat.le_of_eq (((next one).mp here).2.trans ((next other).mp there).2.symm)
    · rw [((next one).mp here).2]
      exact Nat.le_of_lt ((rest other).mp there).2.1

/-- No node stands behind a deeper one. -/
theorem breadthFirst_sorted : tree.breadthFirst.Pairwise fun one other =>
    tree.depth one ≤ tree.depth other :=
  generations_sorted grown tree.size (by simp) (mem_first_generation grown)

/-- The root and the nodes below it are listed once each. -/
theorem nodup_zero_breadthFirst : (0 :: tree.breadthFirst).Nodup := by
  obtain ⟨once, members⟩ := mem_breadthFirst grown
  refine List.nodup_cons.mpr ⟨fun member => ?_, once⟩
  have := ((members 0).mp member).1
  omega

/-- Nodes of one parent stand in ascending order, and nodes of different parents in the order of
these. -/
theorem breadthFirst_queued : tree.breadthFirst.Pairwise fun one other =>
    ∀ upper lower, tree.parent? one = some upper → tree.parent? other = some lower →
      (upper = lower ∧ one < other) ∨
        (upper ≠ lower ∧ [upper, lower].Sublist (0 :: tree.breadthFirst)) := by
  -- Each node contributes its children, and no node is listed twice.
  have blocks : ((0 :: tree.breadthFirst).flatMap tree.children).Pairwise fun one other =>
      ∀ upper lower, tree.parent? one = some upper → tree.parent? other = some lower →
        (upper = lower ∧ one < other) ∨
          (upper ≠ lower ∧ [upper, lower].Sublist (0 :: tree.breadthFirst)) := by
    refine List.pairwise_flatMap.mpr ⟨fun node _ => ?_, ?_⟩
    · refine (tree.children_sorted node).imp_of_mem fun {one other} here there before => ?_
      intro upper lower above aboveToo
      obtain rfl := Option.some.inj ((mem_children.mp here).symm.trans above)
      obtain rfl := Option.some.inj ((mem_children.mp there).symm.trans aboveToo)
      exact .inl ⟨rfl, before⟩
    · refine List.pairwise_iff_forall_sublist.mpr fun {first second} order => ?_
      intro one here other there upper lower above aboveToo
      obtain rfl := Option.some.inj ((mem_children.mp here).symm.trans above)
      obtain rfl := Option.some.inj ((mem_children.mp there).symm.trans aboveToo)
      refine .inr ⟨?_, order⟩
      exact (List.pairwise_iff_forall_sublist.mp (nodup_zero_breadthFirst grown)) order
  rwa [← breadthFirst_eq_flatMap grown] at blocks

/-- Parents stand before their children. -/
theorem parent_before {earlier later : List Nat} {node parent : Nat}
    (order : tree.breadthFirst = earlier ++ node :: later)
    (child : tree.parent? node = some parent) : parent = 0 ∨ parent ∈ earlier := by
  by_cases root : parent = 0
  · exact .inl root
  · -- The parent is listed, and behind its child there are only nodes that are as deep.
    have inside := (range_of_parent? child).2
    have less := grown node parent child
    have deeper := depth_of_parent? grown child
    have listed := ((mem_breadthFirst grown).2 parent).mpr
      ⟨Nat.pos_of_ne_zero root, Nat.lt_trans less inside⟩
    have sorted := breadthFirst_sorted grown
    rw [order] at listed sorted
    have behind := (List.pairwise_cons.mp (List.pairwise_append.mp sorted).2.1).1
    rcases List.mem_append.mp listed with before | after
    · exact .inr before
    · rcases List.mem_cons.mp after with rfl | after
      · omega
      · have := behind parent after
        omega

end Grown

end SpawnTree

end Progeny
