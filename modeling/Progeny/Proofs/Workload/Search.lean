import Mathlib.Logic.Relation
import Progeny.Workload.Reach

/-! The search for a path in a graph is over after two visits more than there are edges at the
latest, and it finds a path exactly if there is one. -/

namespace Progeny.Adjacency

variable {graph : Adjacency} {goal node : Nat} {frontier next : Frontier}

/-- An edge leads from one node to the other. -/
def Links (graph : Adjacency) (source target : Nat) : Prop :=
  target ∈ graph.targets source

/-- A path of zero or more edges leads from one node to the other. -/
def Leads (graph : Adjacency) : Nat → Nat → Prop :=
  Relation.ReflTransGen graph.Links

/-- A path leads from one node to the other that follows no edge of a node that was seen. -/
def LeadsPast (graph : Adjacency) (seen : List Nat) : Nat → Nat → Prop :=
  Relation.ReflTransGen fun source target => source ∉ seen ∧ graph.Links source target

/-- Some node on the stack leads to the goal past all that was seen. -/
def Promising (graph : Adjacency) (goal : Nat) (frontier : Frontier) : Prop :=
  ∃ node ∈ frontier.stack, graph.LeadsPast frontier.seen node goal

section Paths

variable {seen : List Nat} {start : Nat}

/-- Where nothing was seen yet, any path will do. -/
theorem leadsPast_nil : graph.LeadsPast [] start goal ↔ graph.Leads start goal := by
  simp [LeadsPast, Leads]

/-- A node that was seen leads nowhere else past what was seen. -/
theorem not_leadsPast_of_mem (past : node ∈ seen) (differ : node ≠ goal) :
    ¬graph.LeadsPast seen node goal := by
  intro leads
  rcases Relation.ReflTransGen.cases_head leads with same | ⟨_, ⟨fresh, _⟩, _⟩
  · exact differ same
  · exact fresh past

/-- A path past more nodes is one past some of them. -/
theorem LeadsPast.of_cons (leads : graph.LeadsPast (node :: seen) start goal) :
    graph.LeadsPast seen start goal :=
  Relation.ReflTransGen.mono
    (fun _ _ step => ⟨fun past => step.1 (.tail _ past), step.2⟩) _ _ leads

/-- A path does without the edges of a node, or it goes on without them after it has left that node
for the last time. -/
theorem LeadsPast.cons_or (leads : graph.LeadsPast seen start goal) (node : Nat) :
    graph.LeadsPast (node :: seen) start goal ∨
      ∃ target ∈ graph.targets node, graph.LeadsPast (node :: seen) target goal := by
  -- The path is followed backwards from the goal, to the last time that it leaves the node.
  induction leads using Relation.ReflTransGen.head_induction_on with
  | refl => exact .inl .refl
  | @head source next step _ ih =>
    rcases ih with apart | left
    · by_cases leaves : source = node
      · exact .inr ⟨next, leaves ▸ step.2, apart⟩
      · refine .inl (.head ⟨fun past => ?_, step.2⟩ apart)
        exact (List.mem_cons.mp past).elim leaves step.1
    · exact .inr left

/-- Once a node that was not seen and is not the goal is expanded, its targets or the rest of the
stack lead to the goal without its edges exactly if it or the rest of the stack did with them. -/
theorem leadsPast_expand {stack : List Nat} (fresh : node ∉ seen) (differ : node ≠ goal) :
    (∃ start ∈ (graph.targets node).reverse ++ stack, graph.LeadsPast (node :: seen) start goal) ↔
      ∃ start ∈ node :: stack, graph.LeadsPast seen start goal := by
  constructor
  · rintro ⟨start, member, leads⟩
    rcases List.mem_append.mp member with target | waiting
    · exact ⟨node, .head _, .head ⟨fresh, List.mem_reverse.mp target⟩ leads.of_cons⟩
    · exact ⟨start, .tail _ waiting, leads.of_cons⟩
  · rintro ⟨start, member, leads⟩
    rcases leads.cons_or node with apart | ⟨target, leaves, rest⟩
    · rcases List.mem_cons.mp member with rfl | waiting
      · exact absurd apart (not_leadsPast_of_mem (.head _) differ)
      · exact ⟨start, List.mem_append_right _ waiting, apart⟩
    · exact ⟨target, List.mem_append_left _ (List.mem_reverse.mpr leaves), rest⟩

end Paths

/-- A visit ends the search with success exactly if some node on the stack leads to the goal. -/
theorem promising_of_ends {found : Bool} (visited : graph.visit goal frontier = .ends found) :
    found = true ↔ graph.Promising goal frontier := by
  have visits := graph.visit_case goal frontier
  rw [visited] at visits
  cases visits with
  | exhausted empty => simp [Promising, empty]
  | arrives stacked => exact ⟨fun _ => ⟨goal, by simp [stacked], .refl⟩, fun _ => rfl⟩

/-- A visit after which the search goes on neither loses a path to the goal nor makes one up. -/
theorem promising_of_further (visited : graph.visit goal frontier = .further next) :
    graph.Promising goal next ↔ graph.Promising goal frontier := by
  have visits := graph.visit_case goal frontier
  rw [visited] at visits
  cases visits with
  | passes stacked differ past =>
    -- No path past what was seen begins with the edges of a node that was seen.
    simp [Promising, stacked, not_leadsPast_of_mem past differ]
  | expands stacked differ fresh =>
    simpa only [Promising, stacked] using leadsPast_expand fresh differ

/-- A search succeeds exactly if some node on the stack leads to the goal past all that was seen. -/
theorem search_iff_promising (graph : Adjacency) (goal : Nat) (frontier : Frontier) :
    graph.search goal frontier = true ↔ graph.Promising goal frontier := by
  -- The induction follows the search from visit to visit.
  induction frontier using search.induct graph goal with
  | case1 frontier found visited =>
    rw [search, visited]
    exact promising_of_ends visited
  | case2 frontier next visited ih =>
    rw [search, visited, ← promising_of_further visited]
    exact ih

/-- What a search comes to within a number of visits, if it is over by then. -/
def searchWithin (graph : Adjacency) (goal : Nat) : Nat → Frontier → Option Bool
  | 0, _ => none
  | visits + 1, frontier =>
    match graph.visit goal frontier with
    | .ends found => some found
    | .further next => graph.searchWithin goal visits next

/-- A search is over once there were more visits than nodes to come to. -/
theorem searchWithin_of_effort_lt {visits : Nat} (enough : graph.effort frontier < visits) :
    graph.searchWithin goal visits frontier = some (graph.search goal frontier) := by
  -- Each visit leaves fewer nodes to come to.
  induction visits generalizing frontier with
  | zero => exact absurd enough (Nat.not_lt_zero _)
  | succ visits ih =>
    rw [searchWithin, search]
    cases visited : graph.visit goal frontier with
    | ends found => rfl
    | further next =>
      have fewer := effort_visit_lt visited
      exact ih (by omega)

/-- The number of edges of a graph, parallel ones among them. -/
def edgeCount (graph : Adjacency) : Nat :=
  (graph.entries.flatMap Prod.snd).length

/-- A search for a path between two nodes may come to its start and follow every edge. -/
theorem effort_start (graph : Adjacency) (start : Nat) :
    graph.effort { stack := [start] } = graph.edgeCount + 1 := by
  have all : graph.entries.filter (·.1 ∉ ([] : List Nat)) = graph.entries :=
    List.filter_eq_self.mpr (by simp)
  simp only [effort, edgesBeyond, edgeCount, all, List.length_singleton]

/-- Between two nodes a path is found exactly if there is one. -/
theorem reaches_iff (graph : Adjacency) (start goal : Nat) :
    graph.reaches start goal = true ↔ graph.Leads start goal := by
  simp [reaches, search_iff_promising, Promising, leadsPast_nil]

/-- In any graph, whatever cycles, parallel edges and nodes without an entry it has, the search for
a path between any two nodes comes to an end within two visits more than there are edges, and it
finds a path of zero or more edges exactly if there is one. -/
theorem search_exact (graph : Adjacency) (start goal : Nat) :
    graph.searchWithin goal (graph.edgeCount + 2) { stack := [start] } =
        some (graph.reaches start goal) ∧
      (graph.reaches start goal = true ↔ graph.Leads start goal) := by
  have enough : graph.effort { stack := [start] } < graph.edgeCount + 2 := by
    rw [effort_start]
    exact Nat.lt_succ_self _
  exact ⟨searchWithin_of_effort_lt enough, graph.reaches_iff start goal⟩

/-- On a circle of two nodes with a loop and parallel edges, the search comes to nodes that it has
seen, and gives up. -/
example : (Adjacency.mk [(0, [0, 1, 1]), (1, [2, 0])]).reaches 0 3 = false := by
  cbv

end Progeny.Adjacency
