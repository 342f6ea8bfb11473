import SearchSpace.Proofs.BreadthFirst.Shortest
import SearchSpace.Proofs.DepthFirst.FirstSolution
import SearchSpace.Proofs.Puzzle.LeastDigits
import SearchSpace.Proofs.Soundness
import SearchSpace.Proofs.Termination

/-!
# Searches for the solution of a puzzle

Both strategies come to the same solution of a puzzle: all solutions are equally long, so the
shortest one that comes first is also the first one of all. Without a budget a breadth-first search
always answers, and a depth-first search answers if it may go down as far as there are open
variables.
-/

namespace SearchSpace.Puzzle

variable {puzzle : Puzzle} {solver : Solver} {rounds : Nat} {outcome : Outcome Puzzle String}
  {report : Report Puzzle} {values : List UInt8} {states : List Puzzle}

/-- Whatever a solver finds, no simple solution comes before it. -/
theorem first_of_found (wellFormed : puzzle.WellFormed)
    (answered : solver.run space rounds ∅ puzzle = some outcome)
    (found : outcome.verdict = .found states) :
    ∃ positions, space.Solution ∅ puzzle positions states ∧
      ∀ others states', space.SimpleSolution ∅ puzzle others states' → positions ≤ others := by
  have lawful := lawfulOn_region puzzle
  have inside := mem_region wellFormed
  obtain ⟨strategy, limits⟩ := solver
  rw [← VisitedSet.toSet_empty]
  cases strategy with
  | dfs =>
    cases answered
    obtain ⟨positions, solution, first⟩ :=
      DepthFirst.exists_solution_of_found lawful inside found
    exact ⟨positions, solution.toSolution, first⟩
  | bfs =>
    have decided := BreadthFirst.decided_search answered
    obtain ⟨positions, solution, first⟩ :=
      BreadthFirst.exists_solution_of_found lawful inside decided found
    refine ⟨positions, solution, fun others states' other => ?_⟩
    have long := length_positions_of_solution wellFormed solution
    have long' := length_positions_of_solution wellFormed other.toSolution
    rcases (first others states' other.toSolution).length_lt_or_le with shorter | ⟨-, le⟩
    · omega
    · exact le

theorem not_solvedBy_of_exhausted (wellFormed : puzzle.WellFormed)
    (answered : solver.run space rounds ∅ puzzle = some outcome)
    (exhausted : outcome.verdict = .exhausted) : ¬puzzle.SolvedBy values := by
  intro solved
  have solution := solution_of_solvedBy wellFormed solved
  have lawful := lawfulOn_region puzzle
  have inside := mem_region wellFormed
  rw [← VisitedSet.toSet_empty] at solution
  obtain ⟨strategy, limits⟩ := solver
  cases strategy with
  | dfs =>
    cases answered
    exact DepthFirst.not_solvable_of_exhausted lawful inside exhausted ⟨_, _, solution⟩
  | bfs =>
    have decided := BreadthFirst.decided_search answered
    exact BreadthFirst.not_solvable_of_exhausted lawful inside decided exhausted ⟨_, _, solution⟩

theorem exists_outcome_of_search {answer : Except LimitExceeded (Report Puzzle)}
    (answered : solver.search space rounds puzzle = some answer) :
    ∃ outcome, solver.run space rounds ∅ puzzle = some outcome ∧ outcome.report = answer :=
  Option.map_eq_some_iff.1 answered

theorem states_of_search (wellFormed : puzzle.WellFormed)
    (answered : solver.search space rounds puzzle = some (.ok report))
    (solved : puzzle.SolvedBy values)
    (least : ∀ others, puzzle.SolvedBy others → values ≤ others) :
    report.path.states = puzzle.assigning (puzzle.openVariables.zip values) := by
  obtain ⟨outcome, ran, reported⟩ := exists_outcome_of_search answered
  rcases Outcome.verdict_of_report reported with found | ⟨exhausted, -⟩
  · obtain ⟨positions, solution, first⟩ := first_of_found wellFormed ran found
    exact eq_assigning_of_first wellFormed solved least solution first
  · exact absurd solved (not_solvedBy_of_exhausted wellFormed ran exhausted)

theorem path_eq_empty_of_search (wellFormed : puzzle.WellFormed)
    (answered : solver.search space rounds puzzle = some (.ok report))
    (unsolvable : ¬∃ values, puzzle.SolvedBy values) : report.path = .empty := by
  obtain ⟨outcome, ran, reported⟩ := exists_outcome_of_search answered
  rcases Outcome.verdict_of_report reported with found | ⟨-, empty⟩
  · obtain ⟨positions, solution, -⟩ := first_of_found wellFormed ran found
    exact absurd (exists_solvedBy wellFormed solution) unsolvable
  · exact empty

/-- All answers have the same path. -/
theorem path_eq_of_search (wellFormed : puzzle.WellFormed) {other : Solver} {rounds' : Nat}
    {report' : Report Puzzle} (answered : solver.search space rounds puzzle = some (.ok report))
    (answered' : other.search space rounds' puzzle = some (.ok report')) :
    report.path = report'.path := by
  by_cases solvable : ∃ values, puzzle.SolvedBy values
  · obtain ⟨values, solved, least⟩ := exists_least solvable
    have states := states_of_search wellFormed answered solved least
    have states' := states_of_search wellFormed answered' solved least
    exact congrArg Path.mk (states.trans states'.symm)
  · have empty := path_eq_empty_of_search wellFormed answered solvable
    have empty' := path_eq_empty_of_search wellFormed answered' solvable
    exact empty.trans empty'.symm

theorem exists_report_of_not_stopped
    (answered : solver.run space rounds ∅ puzzle = some outcome)
    (unstopped : ∀ reason, outcome.verdict ≠ .stopped reason) :
    ∃ report, solver.search space rounds puzzle = some (.ok report) := by
  have searched : solver.search space rounds puzzle = some outcome.report := by
    rw [Solver.search, answered]
    rfl
  cases verdict : outcome.verdict with
  | found states =>
    rw [Outcome.report_of_found verdict] at searched
    exact ⟨_, searched⟩
  | exhausted =>
    rw [Outcome.report_of_exhausted verdict] at searched
    exact ⟨_, searched⟩
  | stopped reason => exact absurd verdict (unstopped reason)

theorem exists_report_of_bfs (wellFormed : puzzle.WellFormed) (breadth : solver.strategy = .bfs)
    (unbounded : solver.limits.maxExpansions = none) (enough : puzzle.rounds ≤ rounds) :
    ∃ report, solver.search space rounds puzzle = some (.ok report) := by
  obtain ⟨strategy, limits⟩ := solver
  cases breadth
  have more : 10 ^ puzzle.openVariables.length < rounds := by
    rw [Puzzle.rounds, Nat.pow_eq] at enough
    omega
  obtain ⟨outcome, answered⟩ : ∃ outcome,
      BreadthFirst.search space limits rounds ∅ puzzle = some outcome :=
    BreadthFirst.exists_outcome region_closed length_le_of_nodup (mem_region wellFormed) more
  have decided := BreadthFirst.decided_search answered
  exact exists_report_of_not_stopped answered (decided.not_stopped unbounded)

theorem exists_report_of_dfs (depth : solver.strategy = .dfs)
    (unbounded : solver.limits.maxExpansions = none)
    (deep : puzzle.openVariables.length ≤ solver.limits.maxDepth.toNat) :
    ∃ report, solver.search space rounds puzzle = some (.ok report) := by
  obtain ⟨strategy, limits⟩ := solver
  cases depth
  have descends : ∀ {state next : Puzzle}, next ∈ space.successors state →
      next.openVariables.length < state.openVariables.length := by
    intro state next successor
    have closes := length_openVariables_of_mem_successors successor
    omega
  have unstopped : ∀ reason, (DepthFirst.search space limits ∅ puzzle).verdict ≠ .stopped reason :=
    DepthFirst.search_not_stopped descends unbounded deep
  exact exists_report_of_not_stopped rfl unstopped

theorem exists_error_of_dfs (wellFormed : puzzle.WellFormed) (depth : solver.strategy = .dfs)
    (solvable : ∃ values, puzzle.SolvedBy values)
    (shallow : solver.limits.maxDepth.toNat < puzzle.openVariables.length) :
    ∃ reason, solver.search space rounds puzzle = some (.error reason) := by
  obtain ⟨strategy, limits⟩ := solver
  cases depth
  have searched : (⟨.dfs, limits⟩ : Solver).search space rounds puzzle =
      some (DepthFirst.search space limits ∅ puzzle).report := rfl
  cases reported : (DepthFirst.search space limits ∅ puzzle).report with
  | error reason => exact ⟨reason, by rw [searched, reported]⟩
  | ok report =>
    exfalso
    rcases Outcome.verdict_of_report reported with found | ⟨exhausted, -⟩
    · have ⟨sound, depth_le⟩ := DepthFirst.sound_of_found found
      obtain ⟨positions, solution⟩ := sound.solution
      have long := length_positions_of_solution wellFormed solution.toSolution
      have length_eq := solution.walk.length_states
      simp only at shallow
      omega
    · obtain ⟨values, solved⟩ := solvable
      have ran : (⟨.dfs, limits⟩ : Solver).run space rounds ∅ puzzle =
          some (DepthFirst.search space limits ∅ puzzle) := rfl
      exact not_solvedBy_of_exhausted wellFormed ran exhausted solved

/-- A search of a puzzle that can be built answers, if it is not stopped, with the states that give
the open variables the lexicographically least digits that solve the puzzle, in the order of their
names, or with no path if no digits do. All answers have the same path. Without a budget a
breadth-first search is not stopped, nor is a depth-first search that may go down as far as there
are open variables; one that may not is stopped if there is a solution. -/
theorem search_least_digits (built : puzzle.Built) (solver : Solver) :
    (∀ rounds report, solver.search space rounds puzzle = some (.ok report) →
      ((∃ values, puzzle.SolvedBy values) → ∃ values, puzzle.SolvedBy values ∧
        (∀ others, puzzle.SolvedBy others → values ≤ others) ∧
        report.path.states = puzzle.assigning (puzzle.openVariables.zip values)) ∧
      ((¬∃ values, puzzle.SolvedBy values) → report.path.isEmpty = true) ∧
      ∀ (other : Solver) (rounds' : Nat) (report' : Report Puzzle),
        other.search space rounds' puzzle = some (.ok report') → report.path = report'.path) ∧
    (solver.strategy = .bfs → solver.limits.maxExpansions = none →
      ∀ rounds, puzzle.rounds ≤ rounds →
        ∃ report, solver.search space rounds puzzle = some (.ok report)) ∧
    (solver.strategy = .dfs → solver.limits.maxExpansions = none →
      puzzle.openVariables.length ≤ solver.limits.maxDepth.toNat →
        ∀ rounds, ∃ report, solver.search space rounds puzzle = some (.ok report)) ∧
    (solver.strategy = .dfs → (∃ values, puzzle.SolvedBy values) →
      solver.limits.maxDepth.toNat < puzzle.openVariables.length →
        ∀ rounds, ∃ reason, solver.search space rounds puzzle = some (.error reason)) := by
  have wellFormed := WellFormed.of_built built
  refine ⟨fun rounds report answered => ⟨fun solvable => ?_, fun unsolvable => ?_, ?_⟩, ?_, ?_, ?_⟩
  · obtain ⟨values, solved, least⟩ := exists_least solvable
    exact ⟨values, solved, least, states_of_search wellFormed answered solved least⟩
  · rw [path_eq_empty_of_search wellFormed answered unsolvable]
    rfl
  · intro other rounds' report' answered'
    exact path_eq_of_search wellFormed answered answered'
  · intro breadth unbounded rounds enough
    exact exists_report_of_bfs wellFormed breadth unbounded enough
  · intro depth unbounded deep rounds
    exact exists_report_of_dfs depth unbounded deep
  · intro depth solvable shallow rounds
    exact exists_error_of_dfs wellFormed depth solvable shallow

/-- Two variables whose sum is to be 5. -/
def sumOfTwo : Puzzle where
  tree := .add [.var "y", .var "x"]
  assignment := ⟨[("x", 0), ("y", 0)], by decide⟩
  target := 5

theorem search_least_digits_sumOfTwo : sumOfTwo.Built ∧
    ∃ report, (⟨.bfs, {}⟩ : Solver).search space sumOfTwo.rounds sumOfTwo = some (.ok report) ∧
      ∃ values, sumOfTwo.SolvedBy values ∧ (∀ others, sumOfTwo.SolvedBy others → values ≤ others) ∧
        report.path.states = sumOfTwo.assigning (["x", "y"].zip values) := by
  have created : create sumOfTwo.tree sumOfTwo.target ∅ = .ok sumOfTwo := rfl
  have built : sumOfTwo.Built := .create created
  have solvable : ∃ values, sumOfTwo.SolvedBy values := by
    refine ⟨[1, 4], rfl, ?_, rfl⟩
    simp [leastDigit, greatestDigit]
  obtain ⟨answers, answered, -⟩ := search_least_digits built ⟨.bfs, {}⟩
  obtain ⟨report, reported⟩ := answered rfl rfl sumOfTwo.rounds (Nat.le_refl _)
  exact ⟨built, report, reported, (answers _ report reported).1 solvable⟩

end SearchSpace.Puzzle
