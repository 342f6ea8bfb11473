import SearchSpace.StateSpace

/-!
# Counters as state spaces

A counter moves by fixed steps and stays between zero and a maximum.
-/

namespace SearchSpace

/-- A counter that is to reach a goal. -/
structure Counter where
  /-- The steps by which the counter may move, in the order in which they are tried. -/
  steps : List Int
  goal : Int
  /-- The greatest value that a step may lead to. -/
  max : Int
deriving Repr, Inhabited

namespace Counter

/-- The values one step away from `value`. -/
def successors (counter : Counter) (value : Int) : List Int :=
  (counter.steps.map (value + ·)).filter fun next => 0 ≤ next && next ≤ counter.max

/-- The counter as a state space without pruning, in which a value is its own key. -/
def space (counter : Counter) : StateSpace Int Int where
  successors := counter.successors
  isGoal value := value == counter.goal
  key value := value

/-- Rounds that decide every breadth-first search: beside the start only the values up to the
maximum are queued, each at most once. -/
def rounds (counter : Counter) : Nat := (counter.max + 1).toNat + 2

end Counter

end SearchSpace
