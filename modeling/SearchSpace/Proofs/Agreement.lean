import SearchSpace.Proofs.BreadthFirst.Shortest
import SearchSpace.Proofs.DepthFirst.FirstSolution
import SearchSpace.Proofs.Survey

/-!
# The two strategies agree

In a lawful space a search that is not stopped finds a path exactly if there is a solution, whatever
its strategy and its limits. If there is none, both strategies count the same and leave the same
visited set behind: the keys of all states that can be reached without leaving a dead end or a state
that was visited before.
-/

namespace SearchSpace.Solver

universe u v

variable {S : Type u} {K : Type v} [BEq K] [Hashable K] {space : StateSpace S K} {solver : Solver}
  {visited : VisitedSet K} {initial : S} {outcome : Outcome S K} {report : Report S}

namespace Answers

/-- A start that was visited before leaves nothing to be done. -/
theorem eq_of_mem (answers : solver.Answers space visited initial outcome)
    (known : space.key initial ∈ visited) : outcome = ⟨.exhausted, { visited }⟩ := by
  obtain ⟨strategy, limits⟩ := solver
  obtain ⟨rounds, answered⟩ := answers
  cases strategy with
  | dfs =>
    simp only [run, DepthFirst.search, if_pos known] at answered
    exact (Option.some.inj answered).symm
  | bfs =>
    simp only [run, BreadthFirst.search, if_pos known] at answered
    exact (Option.some.inj answered).symm

/-- A start that is a dead end is counted and nothing else. -/
theorem eq_of_isDeadEnd (answers : solver.Answers space visited initial outcome)
    (fresh : space.key initial ∉ visited) (deadEnd : space.isDeadEnd initial = true) :
    outcome = ⟨.exhausted, ({ visited } : Progress K).countPruned⟩ := by
  obtain ⟨strategy, limits⟩ := solver
  obtain ⟨rounds, answered⟩ := answers
  cases strategy with
  | dfs =>
    simp only [run, DepthFirst.search, DepthFirst.explore, if_neg fresh, if_pos deadEnd] at answered
    exact (Option.some.inj answered).symm
  | bfs =>
    simp only [run, BreadthFirst.search, if_neg fresh, if_pos deadEnd] at answered
    exact (Option.some.inj answered).symm

variable [LawfulBEq K]

/-- Any other search that ends without a goal is surveyed. -/
theorem exists_survey (answers : solver.Answers space visited initial outcome)
    (fresh : space.key initial ∉ visited) (alive : space.isDeadEnd initial = false)
    (exhausted : outcome.verdict = .exhausted) :
    ∃ met, Survey space visited initial met outcome.progress := by
  obtain ⟨strategy, limits⟩ := solver
  cases strategy with
  | dfs =>
    obtain rfl := answers_dfs_iff.1 answers
    exact DepthFirst.exists_survey fresh alive exhausted
  | bfs =>
    obtain ⟨rounds, answered⟩ := answers
    exact (BreadthFirst.decided_search answered).exists_survey fresh alive exhausted

/-- A search that ends without a goal leaves no solution. -/
theorem not_solvable (answers : solver.Answers space visited initial outcome)
    (lawful : space.Lawful) (exhausted : outcome.verdict = .exhausted) :
    ¬space.Solvable visited.toSet initial := by
  obtain ⟨strategy, limits⟩ := solver
  have everywhere := lawful.lawfulOn_univ
  cases strategy with
  | dfs =>
    obtain rfl := answers_dfs_iff.1 answers
    exact DepthFirst.not_solvable_of_exhausted everywhere (Set.mem_univ _) exhausted
  | bfs =>
    obtain ⟨rounds, answered⟩ := answers
    exact BreadthFirst.not_solvable_of_exhausted everywhere (Set.mem_univ _)
      (BreadthFirst.decided_search answered) exhausted

/-- A path that is found is a solution. -/
theorem exists_solution (answers : solver.Answers space visited initial outcome)
    (lawful : space.Lawful) {states : List S} (found : outcome.verdict = .found states) :
    ∃ positions, space.Solution visited.toSet initial positions states := by
  obtain ⟨strategy, limits⟩ := solver
  have everywhere := lawful.lawfulOn_univ
  cases strategy with
  | dfs =>
    obtain rfl := answers_dfs_iff.1 answers
    obtain ⟨positions, simple, _⟩ :=
      DepthFirst.exists_solution_of_found everywhere (Set.mem_univ _) found
    exact ⟨positions, simple.toSolution⟩
  | bfs =>
    obtain ⟨rounds, answered⟩ := answers
    obtain ⟨positions, solution, _⟩ := BreadthFirst.exists_solution_of_found everywhere
      (Set.mem_univ _) (BreadthFirst.decided_search answered) found
    exact ⟨positions, solution⟩

/-- A search that is not stopped succeeds exactly if there is a solution. -/
theorem isSolved_iff (answers : solver.Answers space visited initial outcome)
    (lawful : space.Lawful) (reported : outcome.report = .ok report) :
    report.isSolved = true ↔ space.Solvable visited.toSet initial := by
  rcases Outcome.verdict_of_report reported with found | ⟨exhausted, empty⟩
  · obtain ⟨positions, solution⟩ := answers.exists_solution lawful found
    refine iff_of_true ?_ ⟨positions, _, solution⟩
    simp [Report.isSolved, Path.isEmpty, solution.walk.states_ne_nil]
  · refine iff_of_false ?_ (answers.not_solvable lawful exhausted)
    rw [Report.isSolved, empty]
    exact Bool.false_ne_true

/-- A report without success is that of a search that ended without a goal. -/
theorem exhausted_of_report (answers : solver.Answers space visited initial outcome)
    (lawful : space.Lawful) (reported : outcome.report = .ok report)
    (unsolved : report.isSolved = false) : outcome.verdict = .exhausted := by
  rcases Outcome.verdict_of_report reported with found | ⟨exhausted, _⟩
  · obtain ⟨positions, solution⟩ := answers.exists_solution lawful found
    have solved := (answers.isSolved_iff lawful reported).2 ⟨positions, _, solution⟩
    rw [unsolved] at solved
    cases solved
  · exact exhausted

end Answers

variable [LawfulBEq K] {limits limits' : Limits} {outcome' : Outcome S K} {report' : Report S}

/-- Where neither search of a lawful space finds a goal, they come to the same counts and keys. -/
theorem Answers.progress_agrees {solver' : Solver}
    (answers : solver.Answers space visited initial outcome)
    (answers' : solver'.Answers space visited initial outcome') (lawful : space.Lawful)
    (exhausted : outcome.verdict = .exhausted) (exhausted' : outcome'.verdict = .exhausted) :
    outcome.progress.stats = outcome'.progress.stats ∧
      ∀ key, key ∈ outcome.visited ↔ key ∈ outcome'.visited := by
  by_cases known : space.key initial ∈ visited
  · rw [answers.eq_of_mem known, answers'.eq_of_mem known]
    exact ⟨rfl, fun _ => Iff.rfl⟩
  by_cases deadEnd : space.isDeadEnd initial = true
  · rw [answers.eq_of_isDeadEnd known deadEnd, answers'.eq_of_isDeadEnd known deadEnd]
    exact ⟨rfl, fun _ => Iff.rfl⟩
  have alive : space.isDeadEnd initial = false := by simpa using deadEnd
  obtain ⟨met, survey⟩ := answers.exists_survey known alive exhausted
  obtain ⟨met', survey'⟩ := answers'.exists_survey known alive exhausted'
  refine ⟨survey.stats_eq_stats survey' lawful, fun key => ?_⟩
  exact (survey.mem_visited_iff lawful key).trans (survey'.mem_visited_iff lawful key).symm

/-- In a lawful space a depth-first and a breadth-first search that are not stopped agree: one
succeeds exactly if the other does, and if they fail they report the same counts and leave the same
visited set, which holds the keys of all states reached. -/
theorem strategies_agree (lawful : space.Lawful)
    (answers : (⟨.dfs, limits⟩ : Solver).Answers space visited initial outcome)
    (answers' : (⟨.bfs, limits'⟩ : Solver).Answers space visited initial outcome')
    (reported : outcome.report = .ok report) (reported' : outcome'.report = .ok report') :
    (report.isSolved = true ↔ report'.isSolved = true) ∧
    (report.isSolved = false → report'.isSolved = false →
      report.stats = report'.stats ∧
      (∀ key, key ∈ outcome.visited ↔ key ∈ outcome'.visited) ∧
      (space.key initial ∉ visited → space.isDeadEnd initial = false →
        ∀ key, key ∈ outcome.visited ↔ key ∈ visited ∨
          ∃ state, space.Reaches visited.toSet initial state ∧ space.key state = key)) := by
  refine ⟨?_, fun unsolved unsolved' => ?_⟩
  · rw [answers.isSolved_iff lawful reported, answers'.isSolved_iff lawful reported']
  · have exhausted := answers.exhausted_of_report lawful reported unsolved
    have exhausted' := answers'.exhausted_of_report lawful reported' unsolved'
    have ⟨stats, keys⟩ := answers.progress_agrees answers' lawful exhausted exhausted'
    refine ⟨?_, keys, fun fresh alive key => ?_⟩
    · rw [Outcome.stats_of_report reported, Outcome.stats_of_report reported', stats]
    · obtain ⟨met, survey⟩ := answers.exists_survey fresh alive exhausted
      exact survey.mem_visited_iff lawful key

/-- Around its goal the diamond is exhausted by both strategies. -/
theorem strategies_agree_diamond : Graph.diamond.space.Lawful ∧
    ∃ outcome outcome' report report',
      (⟨.dfs, { maxDepth := 1 }⟩ : Solver).Answers Graph.diamond.space (.ofList [3]) 0 outcome ∧
      (⟨.bfs, {}⟩ : Solver).Answers Graph.diamond.space (.ofList [3]) 0 outcome' ∧
      outcome.report = .ok report ∧ outcome'.report = .ok report' ∧
      report.stats.expansions = 3 ∧ report.stats = report'.stats ∧
      (∀ key, key ∈ outcome.visited ↔ key ∈ outcome'.visited) ∧
      ∀ key, key ∈ outcome.visited ↔ key ∈ VisitedSet.ofList [3] ∨
        ∃ state, Graph.diamond.space.Reaches (VisitedSet.ofList [3]).toSet 0 state ∧
          Graph.diamond.space.key state = key := by
  have lawful : Graph.diamond.space.Lawful := Graph.lawful_space rfl
  obtain ⟨exhausted, expansions⟩ :
      (DepthFirst.search Graph.diamond.space { maxDepth := 1 } (.ofList [3]) 0).verdict =
        .exhausted ∧
      (DepthFirst.search Graph.diamond.space { maxDepth := 1 } (.ofList [3])
        0).progress.stats.expansions = 3 := by
    simp [DepthFirst.search, Graph.diamond, Graph.space, Graph.successors, Graph.key,
      DepthFirst.explore, DepthFirst.firstRoute, VisitedSet.mem_ofList, VisitedSet.mem_insert,
      Limits.spent]
  obtain ⟨outcome', answered, exhausted'⟩ : ∃ outcome',
      BreadthFirst.search Graph.diamond.space {} Graph.diamond.rounds (.ofList [3]) 0 =
        some outcome' ∧ outcome'.verdict = .exhausted := by
    simp [BreadthFirst.search, Graph.diamond, Graph.space, Graph.rounds, Graph.successors,
      Graph.key, BreadthFirst.run, BreadthFirst.step, BreadthFirst.start, BreadthFirst.newTrails,
      VisitedSet.mem_ofList, VisitedSet.mem_insert, Queue.ofList, Queue.pop?, Queue.append,
      Limits.spent, Trail.extend]
  have reported := Outcome.report_of_exhausted exhausted
  have reported' := Outcome.report_of_exhausted exhausted'
  have answers := answers_dfs_iff.2
    (Eq.refl (DepthFirst.search Graph.diamond.space { maxDepth := 1 } (.ofList [3]) 0))
  obtain ⟨-, agree⟩ := strategies_agree lawful answers ⟨_, answered⟩ reported reported'
  obtain ⟨same, keys, reached⟩ := agree rfl rfl
  refine ⟨lawful, _, outcome', _, _, answers, ⟨_, answered⟩, reported, reported', expansions, same,
    keys, reached ?_ rfl⟩
  simp [Graph.space, Graph.key, Graph.diamond, VisitedSet.mem_ofList]

end SearchSpace.Solver
