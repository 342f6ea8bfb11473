import SearchSpace.Graph
import SearchSpace.Proofs.Walk

/-!
# Graphs as lawful spaces

The key of a node may name another node, and then the two count as one state. The graph is lawful if
they are alike, and so it is if every node is its own key.
-/

namespace SearchSpace.Graph

variable {graph : Graph}

/-- The key of a node is the node itself, or the node has an entry with that key. -/
theorem key_cases (graph : Graph) (node : Nat) :
    graph.key node = node ∨ (node, graph.key node) ∈ graph.keys := by
  rw [key]
  cases found : graph.keys.reverse.lookup node with
  | none => exact .inl rfl
  | some key =>
    obtain ⟨before, after, split, -⟩ := List.lookup_eq_some_iff.1 found
    right
    rw [← List.mem_reverse, split]
    simp

/-- A graph is lawful if every node that has an entry is like the node that its key names. -/
theorem lawful_space_of_keys (alike : ∀ entry ∈ graph.keys,
    graph.space.isGoal entry.1 = graph.space.isGoal entry.2 ∧
    graph.space.isDeadEnd entry.1 = graph.space.isDeadEnd entry.2 ∧
    (graph.successors entry.1).map graph.key = (graph.successors entry.2).map graph.key) :
    graph.space.Lawful := by
  have likeKey : ∀ node, graph.space.isGoal node = graph.space.isGoal (graph.key node) ∧
      graph.space.isDeadEnd node = graph.space.isDeadEnd (graph.key node) ∧
      (graph.successors node).map graph.key =
        (graph.successors (graph.key node)).map graph.key := by
    intro node
    rcases graph.key_cases node with own | entered
    · rw [own]
      exact ⟨rfl, rfl, rfl⟩
    · exact alike _ entered
  refine ⟨?_, ?_, ?_⟩
  · intro left right (same : graph.key left = graph.key right)
    rw [(likeKey left).1, (likeKey right).1, same]
  · intro left right (same : graph.key left = graph.key right)
    rw [(likeKey left).2.1, (likeKey right).2.1, same]
  · intro left right (same : graph.key left = graph.key right)
    exact (likeKey left).2.2.trans (same ▸ (likeKey right).2.2.symm)

theorem lawful_space (keyless : graph.keys = []) : graph.space.Lawful :=
  lawful_space_of_keys (by simp [keyless])

/-- Two ways of two steps from 0 to 3, a third through a dead end, and an edge back to 0. -/
def diamond : Graph where
  edges := [(0, 4), (0, 1), (0, 2), (1, 0), (1, 3), (2, 3), (4, 3)]
  goals := [3]
  dead := [4]

/-- The goal on one side of 0, and on the other a state with nothing behind it but a dead end. -/
def blindAlley : Graph where
  edges := [(0, 1), (1, 4), (4, 1), (0, 2), (2, 3)]
  goals := [3]
  dead := [4]

/-- Node 2 counts as node 1, although it is a dead end and has no successors. -/
def twins : Graph where
  edges := [(0, 1), (0, 2), (0, 5), (1, 0), (1, 3), (1, 4), (5, 4), (5, 6)]
  goals := [4]
  dead := [2, 3]
  keys := [(2, 1)]

/-- Nodes 2 and 4 count as nodes 1 and 3, whose successors they share up to keys. -/
def doubles : Graph where
  edges := [(0, 1), (1, 3), (2, 4), (3, 5), (4, 5)]
  goals := [5]
  keys := [(2, 1), (4, 3)]

/-- Edges back to the same node and repeated edges. Node 2 counts as node 1 and is not like it. -/
def stutter : Graph where
  edges := [(0, 0), (0, 1), (0, 2), (0, 1), (1, 1), (1, 4), (1, 4), (2, 3), (4, 3)]
  goals := [3]
  keys := [(2, 1)]

end SearchSpace.Graph
