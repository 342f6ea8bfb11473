import SearchSpace.StateSpace

/-!
# Directed graphs as state spaces

A graph given by its edges, with goals, with dead ends that a search gives up at once, and with
keys that may make different nodes count as the same.
-/

namespace SearchSpace

/-- A directed graph with goals. Its nodes are numbers. -/
structure Graph where
  /-- The edges, each from its first node to its second. -/
  edges : List (Nat × Nat)
  goals : List Nat := []
  dead : List Nat := []
  /-- Keys of nodes; of several entries for one node the last counts, and a node without an entry
  is its own key. -/
  keys : List (Nat × Nat) := []
deriving Repr, Inhabited

namespace Graph

/-- The nodes that edges lead to from `node`, in the order of the edges, repetitions included. -/
def successors (graph : Graph) (node : Nat) : List Nat :=
  graph.edges.filterMap fun edge => if edge.1 = node then some edge.2 else none

/-- The key of a node. -/
def key (graph : Graph) (node : Nat) : Nat :=
  (graph.keys.reverse.lookup node).getD node

/-- The graph as a state space. -/
def space (graph : Graph) : StateSpace Nat Nat where
  successors := graph.successors
  isGoal node := graph.goals.contains node
  isDeadEnd node := graph.dead.contains node
  key := graph.key

/-- Rounds that decide every breadth-first search: a queued node is the start or the end of an
edge, and no key is queued twice. -/
def rounds (graph : Graph) : Nat := graph.edges.length + 2

end Graph

end SearchSpace
