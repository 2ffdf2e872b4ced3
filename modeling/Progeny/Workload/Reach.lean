/-! The search for a path in a finite directed graph, where edges may be parallel or lead back. -/

namespace Progeny

/-- A directed graph as the nodes that edges leave, each with the nodes that its edges lead to. -/
structure Adjacency where
  entries : List (Nat × List Nat) := []
  deriving DecidableEq

namespace Adjacency

/-- Where the edges of a node lead, in order. A node without an entry has none. -/
def targets (graph : Adjacency) (node : Nat) : List Nat :=
  (graph.entries.lookup node).getD []

/-- One more edge in a list of entries. -/
def insertEdge (source target : Nat) : List (Nat × List Nat) → List (Nat × List Nat)
  | [] => [(source, [target])]
  | (node, leads) :: rest =>
    if node = source then (node, leads ++ [target]) :: rest
    else (node, leads) :: insertEdge source target rest

/-- Adds an edge after the others that leave its source. -/
def push (graph : Adjacency) (source target : Nat) : Adjacency :=
  ⟨insertEdge source target graph.entries⟩

/-- Adding an edge adds its target to those of its source. -/
theorem targets_push (graph : Adjacency) (source target node : Nat) :
    (graph.push source target).targets node =
      graph.targets node ++ if node = source then [target] else [] := by
  -- The first entry of the source is the one that grows, and where there is none one is added.
  obtain ⟨entries⟩ := graph
  simp only [push, targets]
  induction entries with
  | nil =>
    by_cases same : node = source
    · simp [insertEdge, same]
    · simp [insertEdge, List.lookup_cons, same, beq_false_of_ne same]
  | cons entry rest ih =>
    obtain ⟨held, leads⟩ := entry
    unfold insertEdge
    by_cases here : held = source
    · by_cases same : node = source
      · subst here same
        simp
      · simp [here, List.lookup_cons, same, beq_false_of_ne same]
    · by_cases same : node = held
      · subst same
        simp [here]
      · simpa [here, List.lookup_cons, beq_false_of_ne same] using ih

/-- The number of edges that leave other nodes than some. -/
def edgesBeyond (graph : Adjacency) (seen : List Nat) : Nat :=
  ((graph.entries.filter (·.1 ∉ seen)).flatMap Prod.snd).length

/-- Once a node is seen as well, its edges do not count any more. -/
theorem edgesBeyond_cons_add_length_targets (graph : Adjacency) {seen : List Nat} {node : Nat}
    (fresh : node ∉ seen) :
    graph.edgesBeyond (node :: seen) + (graph.targets node).length ≤ graph.edgesBeyond seen := by
  -- The first entry of the node is the one that tells its targets, and later ones only add edges.
  obtain ⟨entries⟩ := graph
  unfold edgesBeyond targets
  induction entries with
  | nil => simp
  | cons entry rest ih =>
    obtain ⟨source, leads⟩ := entry
    by_cases same : node = source
    · subst same
      simp [fresh] at ih ⊢
      omega
    · have other := beq_false_of_ne same
      by_cases past : source ∈ seen
      · simpa [List.lookup_cons, other, past] using ih
      · simp [List.lookup_cons, other, past, Ne.symm same] at ih ⊢
        omega

/-- How far a search for a path has come. -/
structure Frontier where
  /-- The nodes whose edges were followed. -/
  seen : List Nat := []
  /-- The nodes to be visited, from the one pushed last on. A node can wait there several times. -/
  stack : List Nat
  deriving DecidableEq

/-- What a visit to a node leads to. -/
inductive Visit where
  /-- The search is over. -/
  | ends (found : Bool)
  /-- The search goes on. -/
  | further (frontier : Frontier)
  deriving DecidableEq

/-- Visits the node on top of the stack. -/
def visit (graph : Adjacency) (goal : Nat) (frontier : Frontier) : Visit :=
  match frontier.stack with
  | [] => .ends false
  | node :: stack =>
    if node = goal then .ends true
    -- A node is marked when it is visited and not when it is pushed.
    else if node ∈ frontier.seen then .further { frontier with stack := stack }
    else .further { seen := node :: frontier.seen, stack := (graph.targets node).reverse ++ stack }

/-- What a visit can come to. -/
inductive VisitCase (graph : Adjacency) (goal : Nat) (frontier : Frontier) : Visit → Prop where
  /-- No node is left to be visited. -/
  | exhausted (empty : frontier.stack = []) : VisitCase graph goal frontier (.ends false)
  /-- The goal is reached. -/
  | arrives {stack : List Nat} (stacked : frontier.stack = goal :: stack) :
    VisitCase graph goal frontier (.ends true)
  /-- The node was seen before. -/
  | passes {node : Nat} {stack : List Nat} (stacked : frontier.stack = node :: stack)
      (differ : node ≠ goal) (past : node ∈ frontier.seen) :
    VisitCase graph goal frontier (.further { frontier with stack := stack })
  /-- The edges of the node are followed. -/
  | expands {node : Nat} {stack : List Nat} (stacked : frontier.stack = node :: stack)
      (differ : node ≠ goal) (fresh : node ∉ frontier.seen) :
    VisitCase graph goal frontier
      (.further ⟨node :: frontier.seen, (graph.targets node).reverse ++ stack⟩)

/-- A visit comes to one of these. -/
theorem visit_case (graph : Adjacency) (goal : Nat) (frontier : Frontier) :
    VisitCase graph goal frontier (graph.visit goal frontier) := by
  unfold visit
  split
  · exact .exhausted ‹_›
  · rename_i node stack stacked
    by_cases same : node = goal
    · rw [if_pos same]
      exact .arrives (same ▸ stacked)
    · rw [if_neg same]
      by_cases past : node ∈ frontier.seen
      · rw [if_pos past]
        exact .passes stacked same past
      · rw [if_neg past]
        exact .expands stacked same past

/-- How many nodes a search can still come to: those on the stack, and one for each edge that was not
followed yet. -/
def effort (graph : Adjacency) (frontier : Frontier) : Nat :=
  graph.edgesBeyond frontier.seen + frontier.stack.length

/-- After each visit there are fewer nodes to come to. -/
theorem effort_visit_lt {graph : Adjacency} {goal : Nat} {frontier next : Frontier}
    (visited : graph.visit goal frontier = .further next) :
    graph.effort next < graph.effort frontier := by
  have visits := graph.visit_case goal frontier
  rw [visited] at visits
  cases visits with
  | passes stacked => simp [effort, stacked]
  | expands stacked _ fresh =>
    -- The edges of the node move from the graph to the stack, and the node is gone.
    have moved := graph.edgesBeyond_cons_add_length_targets fresh
    simp only [effort, stacked, List.length_append, List.length_reverse, List.length_cons]
    omega

/-- Visits one node after another until the search is over. -/
def search (graph : Adjacency) (goal : Nat) (frontier : Frontier) : Bool :=
  match _ : graph.visit goal frontier with
  | .ends found => found
  | .further next => graph.search goal next
termination_by graph.effort frontier
decreasing_by exact effort_visit_lt ‹_›

/-- Whether a path of zero or more edges leads from one node to another. -/
def reaches (graph : Adjacency) (start goal : Nat) : Bool :=
  graph.search goal { stack := [start] }

end Adjacency

/-- Edges of a directed graph, each with its source and its target. -/
abbrev Edges := List (Nat × Nat)

namespace Edges

/-- The graph of some edges. -/
def adjacency (edges : Edges) : Adjacency :=
  edges.foldl (fun graph edge => graph.push edge.1 edge.2) {}

/-- Whether a path of zero or more edges leads from one node to another. -/
def reaches (edges : Edges) (start goal : Nat) : Bool :=
  edges.adjacency.reaches start goal

end Edges

end Progeny
