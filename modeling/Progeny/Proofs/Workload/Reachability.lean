import Progeny.Proofs.Workload.Search

/-! Among some edges a path is found exactly if there is one, and so an edge that is drawn only where
no path leads back closes no cycle. -/

namespace Progeny.Edges

/-- An edge leads from one node to the other. -/
def Links (edges : Edges) (source target : Nat) : Prop :=
  (source, target) ∈ edges

/-- A path of zero or more edges leads from one node to the other. -/
def Leads (edges : Edges) : Nat → Nat → Prop :=
  Relation.ReflTransGen edges.Links

/-- No path of one or more edges leads from a node back to it. -/
def IsAcyclic (edges : Edges) : Prop :=
  ∀ node, ¬Relation.TransGen edges.Links node node

variable {edges : Edges}

/-- In the graph of some edges a node leads where its edges do, in their order. -/
theorem targets_adjacency (edges : Edges) (node : Nat) :
    edges.adjacency.targets node = (edges.filter fun edge => edge.1 = node).map Prod.snd := by
  -- Whatever graph there was before, each edge in turn adds its target.
  have general (edges : Edges) (graph : Adjacency) :
      (edges.foldl (fun graph edge => graph.push edge.1 edge.2) graph).targets node =
        graph.targets node ++ (edges.filter fun edge => edge.1 = node).map Prod.snd := by
    induction edges generalizing graph with
    | nil => simp
    | cons edge rest ih =>
      rw [List.foldl_cons, ih, Adjacency.targets_push]
      by_cases leaves : edge.1 = node
      · simp [leaves]
      · simp [leaves, Ne.symm leaves]
  exact (general edges {}).trans (List.nil_append _)

/-- In the graph of some edges it is those that lead from node to node. -/
theorem links_adjacency (edges : Edges) : edges.adjacency.Links = edges.Links := by
  funext source target
  simp [Adjacency.Links, Links, targets_adjacency]

/-- Between two nodes a path is found exactly if there is one. -/
theorem reaches_iff_leads (edges : Edges) (start goal : Nat) :
    edges.reaches start goal = true ↔ edges.Leads start goal := by
  rw [reaches, Adjacency.reaches_iff, Adjacency.Leads, links_adjacency, Leads]

section Draw

variable {source target : Nat}

/-- A further edge links its two ends. -/
theorem links_concat {one other : Nat} : Links (edges ++ [(source, target)]) one other ↔
    edges.Links one other ∨ one = source ∧ other = target := by
  simp [Links]

/-- A path of one or more edges does without the last edge, or it comes to where that edge leaves
and goes on from where it leads. -/
theorem trans_concat {one other : Nat}
    (path : Relation.TransGen (Links (edges ++ [(source, target)])) one other) :
    Relation.TransGen edges.Links one other ∨
      edges.Leads one source ∧ edges.Leads target other := by
  induction path with
  | single link =>
    rcases links_concat.mp link with older | ⟨rfl, rfl⟩
    · exact .inl (.single older)
    · exact .inr ⟨.refl, .refl⟩
  | tail _ link ih =>
    rcases links_concat.mp link with older | ⟨rfl, rfl⟩
    · rcases ih with path | ⟨there, back⟩
      · exact .inl (path.tail older)
      · exact .inr ⟨there, back.tail older⟩
    · rcases ih with path | ⟨there, -⟩
      · exact .inr ⟨path.to_reflTransGen, .refl⟩
      · exact .inr ⟨there, .refl⟩

/-- Without edges there is no cycle. -/
theorem isAcyclic_nil : IsAcyclic [] := by
  intro node path
  obtain ⟨_, link, -⟩ := Relation.TransGen.head'_iff.mp path
  simp [Links] at link

/-- An edge whose target does not lead to its source closes no cycle. -/
theorem IsAcyclic.concat (acyclic : edges.IsAcyclic)
    (apart : edges.reaches target source = false) :
    IsAcyclic (edges ++ [(source, target)]) := by
  intro node path
  rcases trans_concat path with older | ⟨there, back⟩
  · exact acyclic node older
  · -- The way around the cycle leads from the target to the source.
    have leads := (reaches_iff_leads edges target source).mpr (back.trans there)
    simp [apart] at leads

end Draw

end Progeny.Edges
