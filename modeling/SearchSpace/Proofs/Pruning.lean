import SearchSpace.Proofs.Agreement
import SearchSpace.Proofs.BreadthFirst.Comparison
import SearchSpace.Proofs.DepthFirst.Pruning

/-!
# Sound pruning does not show

A search of a lawful space may give up states that lead to no goal. The path that it finds is the
one that it would have found without, and it expands no more states for it. With dead ends a
breadth-first search has fewer routes but the same solutions.
-/

namespace SearchSpace.Solver

universe u v

variable {S : Type u} {K : Type v} [BEq K] [Hashable K] [LawfulBEq K] {space : StateSpace S K}
  {visited : VisitedSet K} {initial : S} {outcome outcome' : Outcome S K}

omit [BEq K] [Hashable K] [LawfulBEq K] in
/-- For a breadth-first search sound dead ends only narrow the space. -/
theorem narrows_unpruned (sound : space.SoundDeadEnds) (blocked : Set K) (start : S) :
    BreadthFirst.Narrows space space.unpruned blocked blocked start where
  key_eq := rfl
  route route := route.unpruned
  solution_iff := sound.solution_iff

/-- With sound dead ends a search that is not stopped decides the same as without, and expands no
more states. -/
theorem Answers.agrees_unpruned {strategy : Strategy} {limits limits' : Limits}
    (answers : (⟨strategy, limits⟩ : Solver).Answers space visited initial outcome)
    (answers' : (⟨strategy, limits'⟩ : Solver).Answers space.unpruned visited initial outcome')
    (lawful : space.Lawful) (sound : space.SoundDeadEnds)
    (unstopped : ∀ reason, outcome.verdict ≠ .stopped reason)
    (unstopped' : ∀ reason, outcome'.verdict ≠ .stopped reason) :
    outcome.verdict = outcome'.verdict ∧
      outcome.progress.stats.expansions ≤ outcome'.progress.stats.expansions := by
  cases strategy with
  | dfs =>
    obtain rfl := answers_dfs_iff.1 answers
    obtain rfl := answers_dfs_iff.1 answers'
    exact DepthFirst.search_agrees_unpruned lawful sound unstopped unstopped'
  | bfs =>
    obtain ⟨rounds, answered⟩ := answers
    obtain ⟨rounds', answered'⟩ := answers'
    have decided := BreadthFirst.decided_search answered
    have decided' := BreadthFirst.decided_search answered'
    have narrows := narrows_unpruned sound visited.toSet initial
    exact ⟨narrows.verdict_eq lawful lawful.unpruned decided decided' unstopped unstopped',
      narrows.expansions_le lawful lawful.unpruned decided decided' unstopped'⟩

/-- Sound pruning does not show in the answer. In a lawful space in which no dead end leads to a
goal, a search that is not stopped reports the path that it reports if it gives up no state, and
reports no more expansions. -/
theorem pruning_keeps_path {strategy : Strategy} {limits limits' : Limits}
    {report report' : Report S} (lawful : space.Lawful) (sound : space.SoundDeadEnds)
    (answers : (⟨strategy, limits⟩ : Solver).Answers space visited initial outcome)
    (answers' : (⟨strategy, limits'⟩ : Solver).Answers space.unpruned visited initial outcome')
    (reported : outcome.report = .ok report) (reported' : outcome'.report = .ok report') :
    report.path = report'.path ∧ report.stats.expansions ≤ report'.stats.expansions := by
  obtain ⟨same, fewer⟩ := answers.agrees_unpruned answers' lawful sound
    (Outcome.not_stopped_of_report reported) (Outcome.not_stopped_of_report reported')
  refine ⟨Outcome.path_eq_of_verdict_eq reported reported' same, ?_⟩
  rwa [Outcome.stats_of_report reported, Outcome.stats_of_report reported']

/-- Without its dead end the blind alley is expanded to the end. -/
theorem pruning_keeps_path_blindAlley : Graph.blindAlley.space.Lawful ∧
    Graph.blindAlley.space.SoundDeadEnds ∧ ∃ outcome outcome' report report',
      (⟨.dfs, { maxDepth := 2 }⟩ : Solver).Answers Graph.blindAlley.space ∅ 0 outcome ∧
      (⟨.dfs, { maxDepth := 2 }⟩ : Solver).Answers Graph.blindAlley.space.unpruned ∅ 0 outcome' ∧
      outcome.report = .ok report ∧ outcome'.report = .ok report' ∧
      report.path.states = [0, 2, 3] ∧ report.stats.expansions = 3 ∧
      report'.stats.expansions = 4 ∧
      report.path = report'.path ∧ report.stats.expansions ≤ report'.stats.expansions := by
  have lawful : Graph.blindAlley.space.Lawful := Graph.lawful_space rfl
  have sound : Graph.blindAlley.space.SoundDeadEnds := by
    intro start deadEnd positions states walk state member
    -- From the dead end the only way is back to 1.
    have closed : ∀ {state next : Nat}, state ∈ ({1, 4} : Set Nat) →
        next ∈ Graph.blindAlley.space.successors state → next ∈ ({1, 4} : Set Nat) := by
      rintro state next (rfl | rfl) successor <;>
        simp_all [Graph.space, Graph.successors, Graph.blindAlley]
    have inside : start ∈ ({1, 4} : Set Nat) := by
      simp_all [Graph.space, Graph.blindAlley]
    rcases walk.mem_region closed inside state member with rfl | rfl <;> rfl
  obtain ⟨found, expansions⟩ :
      (DepthFirst.search Graph.blindAlley.space { maxDepth := 2 } ∅ 0).verdict =
        .found [0, 2, 3] ∧
      (DepthFirst.search Graph.blindAlley.space { maxDepth := 2 } ∅ 0).progress.stats.expansions =
        3 := by
    simp [DepthFirst.search, Graph.blindAlley, Graph.space, Graph.successors, Graph.key,
      DepthFirst.explore, DepthFirst.firstRoute, VisitedSet.not_mem_empty, VisitedSet.mem_insert,
      Limits.spent]
  obtain ⟨found', expansions'⟩ :
      (DepthFirst.search Graph.blindAlley.space.unpruned { maxDepth := 2 } ∅ 0).verdict =
        .found [0, 2, 3] ∧
      (DepthFirst.search Graph.blindAlley.space.unpruned { maxDepth := 2 } ∅
        0).progress.stats.expansions = 4 := by
    simp [DepthFirst.search, StateSpace.unpruned, Graph.blindAlley, Graph.space, Graph.successors,
      Graph.key, DepthFirst.explore, DepthFirst.firstRoute, VisitedSet.not_mem_empty,
      VisitedSet.mem_insert, Limits.spent]
  have answers := answers_dfs_iff.2
    (Eq.refl (DepthFirst.search Graph.blindAlley.space { maxDepth := 2 } ∅ 0))
  have answers' := answers_dfs_iff.2
    (Eq.refl (DepthFirst.search Graph.blindAlley.space.unpruned { maxDepth := 2 } ∅ 0))
  have reported := Outcome.report_of_found found
  have reported' := Outcome.report_of_found found'
  obtain ⟨same, fewer⟩ := pruning_keeps_path lawful sound answers answers' reported reported'
  exact ⟨lawful, sound, _, _, _, _, answers, answers', reported, reported', rfl, expansions,
    expansions', same, fewer⟩

end SearchSpace.Solver
