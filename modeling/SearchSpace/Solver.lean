import SearchSpace.BreadthFirst
import SearchSpace.DepthFirst

/-!
# Solvers

A solver is a strategy with limits. Its three ways of being asked differ in what the caller hands in
and wants back: a visited set shared between searches, a report, or only the path. A breadth-first
search of an infinite space need not end, so each is given a number of rounds and answers `none` if
they were not enough; a depth-first search always answers.
-/

namespace SearchSpace

universe u v

/-- Which search to run. -/
inductive Strategy where
  | dfs
  | bfs
deriving DecidableEq, Repr

/-- The name under which a strategy is chosen and reported. -/
def Strategy.name : Strategy → String
  | .dfs => "dfs"
  | .bfs => "bfs"

/-- A strategy with limits. -/
structure Solver where
  strategy : Strategy
  limits : Limits := {}
deriving DecidableEq, Repr

namespace Solver

variable {S : Type u} {K : Type v} [BEq K] [Hashable K]

/-- Searches from `initial`, away from the states whose keys are in `visited`. -/
def run (solver : Solver) (space : StateSpace S K) (rounds : Nat)
    (visited : VisitedSet K) (initial : S) : Option (Outcome S K) :=
  match solver.strategy with
  | .dfs => some (DepthFirst.search space solver.limits visited initial)
  | .bfs => BreadthFirst.search space solver.limits rounds visited initial

/-- Searches from `initial` with a visited set of its own. -/
def search (solver : Solver) (space : StateSpace S K) (rounds : Nat) (initial : S) :
    Option (Except LimitExceeded (Report S)) :=
  (solver.run space rounds ∅ initial).map Outcome.report

/-- The path from `initial` to a goal, empty if there is none. -/
def solve (solver : Solver) (space : StateSpace S K) (rounds : Nat) (initial : S) :
    Option (Except LimitExceeded (Path S)) :=
  (solver.search space rounds initial).map (Except.map Report.path)

end Solver

end SearchSpace
