import SearchSpace.Proofs.Agreement
import SearchSpace.Proofs.BreadthFirst.Comparison
import SearchSpace.Proofs.DepthFirst.Shortcut

/-!
# Visited sets shared between searches

A search that ends without a goal leaves a visited set behind that a later search of the same space
may be given: in a lawful space the later search answers what it would have answered without, and
expands no more states. Its start and its strategy need not be those of the first search.
-/

namespace SearchSpace.Solver

universe u v

variable {S : Type u} {K : Type v} [BEq K] [Hashable K] [LawfulBEq K] {space : StateSpace S K}
  {solver : Solver} {visited more : VisitedSet K} {initial : S} {outcome : Outcome S K}

/-- What an exhausted search leaves behind may be closed off. -/
theorem Answers.closedOff (answers : solver.Answers space visited initial outcome)
    (lawful : space.Lawful) (exhausted : outcome.verdict = .exhausted) :
    space.ClosedOff visited.toSet outcome.visited.toSet ∧
      visited.toSet ⊆ outcome.visited.toSet := by
  by_cases known : space.key initial ∈ visited
  · rw [answers.eq_of_mem known]
    exact ⟨.self _, subset_rfl⟩
  by_cases deadEnd : space.isDeadEnd initial = true
  · rw [answers.eq_of_isDeadEnd known deadEnd]
    exact ⟨.self _, subset_rfl⟩
  obtain ⟨met, survey⟩ := answers.exists_survey known (by simpa using deadEnd) exhausted
  exact ⟨survey.closedOff lawful, fun key old => (survey.visited_iff key).2 (.inl old)⟩

/-- A depth-first search that is not stopped goes the same way around keys that may be closed
off. -/
theorem exists_answer_dfs {limits : Limits}
    (closedOff : space.ClosedOff visited.toSet more.toSet) (subset : visited.toSet ⊆ more.toSet)
    (lawful : space.Lawful)
    (answers : (⟨.dfs, limits⟩ : Solver).Answers space visited initial outcome)
    (unstopped : ∀ reason, outcome.verdict ≠ .stopped reason) :
    ∃ after, (⟨.dfs, limits⟩ : Solver).Answers space more initial after ∧
      after.verdict = outcome.verdict ∧
      after.progress.stats.expansions ≤ outcome.progress.stats.expansions := by
  by_cases inside : space.key initial ∈ more
  · have atOnce : DepthFirst.search space limits more initial = ⟨.exhausted, { visited := more }⟩ :=
      if_pos inside
    refine ⟨_, answers_dfs_iff.2 atOnce, ?_, Nat.zero_le _⟩
    cases verdict : outcome.verdict with
    | exhausted => rfl
    | stopped reason => exact absurd verdict (unstopped reason)
    | found states =>
      obtain ⟨positions, solution⟩ := answers.exists_solution lawful verdict
      exact absurd ⟨positions, states, solution⟩ (closedOff.not_solvable inside)
  · obtain rfl := answers_dfs_iff.1 answers
    rcases DepthFirst.exists_explores_search space limits visited initial with
      ⟨known, _⟩ | ⟨_, entered, explores⟩
    · exact absurd (subset known) inside
    · have unvisited : (DepthFirst.Task.state initial).Unvisited space
          ({ visited := more } : Progress K).visited := inside
      have same : more.toSet = visited.toSet ∪ more.toSet := (Set.union_eq_right.2 subset).symm
      obtain ⟨entered', after, explores', _, fewer⟩ :=
        explores.shortcut closedOff unstopped subset_rfl unvisited same (Nat.le_refl 0)
      exact ⟨_, answers_dfs_iff.2 (explores'.search_eq inside), rfl, fewer⟩

/-- A breadth-first search that is not stopped finds the same path around keys that may be closed
off. -/
theorem exists_answer_bfs {limits : Limits}
    (closedOff : space.ClosedOff visited.toSet more.toSet) (subset : visited.toSet ⊆ more.toSet)
    (lawful : space.Lawful)
    (answers : (⟨.bfs, limits⟩ : Solver).Answers space visited initial outcome)
    (unstopped : ∀ reason, outcome.verdict ≠ .stopped reason) :
    ∃ after, (⟨.bfs, limits⟩ : Solver).Answers space more initial after ∧
      after.verdict = outcome.verdict ∧
      after.progress.stats.expansions ≤ outcome.progress.stats.expansions := by
  have narrows : BreadthFirst.Narrows space space more.toSet visited.toSet initial :=
    { key_eq := rfl
      route := fun route =>
        { route with fresh := fun state member old => route.fresh state member (subset old) }
      solution_iff := closedOff.solution_iff subset }
  obtain ⟨rounds, answered⟩ := answers
  have decided := BreadthFirst.decided_search answered
  obtain ⟨rounds', after, answered', unstopped'⟩ :=
    narrows.exists_outcome lawful lawful decided unstopped
  have decided' := BreadthFirst.decided_search answered'
  exact ⟨after, ⟨rounds', answered'⟩,
    narrows.verdict_eq lawful lawful decided' decided unstopped' unstopped,
    narrows.expansions_le lawful lawful decided' decided unstopped⟩

/-- Nothing is lost by sharing the visited set of a failed search. In a lawful space, if one search
ends without a goal, then any other that answers without its visited set answers with it too, under
the same limits: with the same path, and after no more expansions. -/
theorem sharing_loses_nothing (lawful : space.Lawful) {first second : Solver} {start next : S}
    {failed before : Outcome S K} {report report' : Report S}
    (answers : first.Answers space visited start failed) (reported : failed.report = .ok report)
    (empty : report.path.isEmpty = true)
    (answers' : second.Answers space visited next before)
    (reported' : before.report = .ok report') :
    ∃ after report'', second.Answers space failed.visited next after ∧
      after.report = .ok report'' ∧ report''.path = report'.path ∧
      report''.stats.expansions ≤ report'.stats.expansions := by
  have unsolved : report.isSolved = false := by
    rw [Report.isSolved, empty]
    rfl
  have exhausted := answers.exhausted_of_report lawful reported unsolved
  obtain ⟨closedOff, subset⟩ := answers.closedOff lawful exhausted
  have unstopped := Outcome.not_stopped_of_report reported'
  obtain ⟨after, answers'', verdict, fewer⟩ : ∃ after,
      second.Answers space failed.visited next after ∧ after.verdict = before.verdict ∧
      after.progress.stats.expansions ≤ before.progress.stats.expansions := by
    obtain ⟨strategy, limits⟩ := second
    cases strategy with
    | dfs => exact exists_answer_dfs closedOff subset lawful answers' unstopped
    | bfs => exact exists_answer_bfs closedOff subset lawful answers' unstopped
  rw [← Outcome.stats_of_report reported'] at fewer
  rcases Outcome.verdict_of_report reported' with found | ⟨exhausted', empty'⟩
  · exact ⟨after, _, answers'', Outcome.report_of_found (verdict.trans found), rfl, fewer⟩
  · exact ⟨after, _, answers'', Outcome.report_of_exhausted (verdict.trans exhausted'),
      empty'.symm, fewer⟩

theorem sharing_loses_nothing_blindAlley : Graph.blindAlley.space.Lawful ∧
    ∃ failed before after report report' report'',
      (⟨.dfs, { maxDepth := 1 }⟩ : Solver).Answers Graph.blindAlley.space ∅ 1 failed ∧
      failed.report = .ok report ∧ report.path.isEmpty = true ∧
      (⟨.bfs, {}⟩ : Solver).Answers Graph.blindAlley.space ∅ 0 before ∧
      before.report = .ok report' ∧ report'.path.states = [0, 2, 3] ∧
      (⟨.bfs, {}⟩ : Solver).Answers Graph.blindAlley.space failed.visited 0 after ∧
      after.report = .ok report'' ∧ report''.path = report'.path ∧
      report''.stats.expansions ≤ report'.stats.expansions := by
  have lawful : Graph.blindAlley.space.Lawful := Graph.lawful_space rfl
  have exhausted : (DepthFirst.search Graph.blindAlley.space { maxDepth := 1 } ∅ 1).verdict =
      .exhausted := by
    simp [DepthFirst.search, Graph.blindAlley, Graph.space, Graph.successors, Graph.key,
      DepthFirst.explore, DepthFirst.firstRoute, VisitedSet.not_mem_empty, VisitedSet.mem_insert,
      Limits.spent]
  obtain ⟨before, answered, found⟩ : ∃ before,
      BreadthFirst.search Graph.blindAlley.space {} Graph.blindAlley.rounds ∅ 0 = some before ∧
      before.verdict = .found [0, 2, 3] := by
    simp [BreadthFirst.search, Graph.blindAlley, Graph.space, Graph.rounds, Graph.successors,
      Graph.key, BreadthFirst.run, BreadthFirst.step, BreadthFirst.start, BreadthFirst.newTrails,
      VisitedSet.not_mem_empty, VisitedSet.mem_insert, Queue.ofList, Queue.pop?, Queue.append,
      Limits.spent, Trail.extend, Trail.toList]
  have answers := answers_dfs_iff.2
    (Eq.refl (DepthFirst.search Graph.blindAlley.space { maxDepth := 1 } ∅ 1))
  have answers' : (⟨.bfs, {}⟩ : Solver).Answers Graph.blindAlley.space ∅ 0 before := ⟨_, answered⟩
  have reported := Outcome.report_of_exhausted exhausted
  have reported' := Outcome.report_of_found found
  obtain ⟨after, report'', answers'', reported'', path, fewer⟩ :=
    sharing_loses_nothing lawful answers reported rfl answers' reported'
  exact ⟨lawful, _, before, after, _, _, report'', answers, reported, rfl, answers', reported', rfl,
    answers'', reported'', path, fewer⟩

end SearchSpace.Solver
