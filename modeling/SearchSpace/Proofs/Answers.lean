import SearchSpace.Solver

/-!
# The answer of a solver

A breadth-first search is given a number of rounds. A solver answers if some number of them is
enough; more rounds do not change what was decided, so there is at most one answer.
-/

namespace SearchSpace

universe u v

variable {S : Type u} {K : Type v} [BEq K] [Hashable K] {space : StateSpace S K}
  {visited : VisitedSet K} {initial : S}

namespace BreadthFirst

variable {limits : Limits} {rounds more : Nat} {outcome : Outcome S K}

/-- More rounds do not change what was decided. -/
theorem run_of_le {frontier : Frontier S K} (le : rounds ≤ more)
    (decided : run space limits rounds frontier = some outcome) :
    run space limits more frontier = some outcome := by
  induction rounds generalizing more frontier with
  | zero => cases decided
  | succ rounds ih =>
    cases more with
    | zero => omega
    | succ more =>
      rw [run] at decided ⊢
      cases stepped : step space limits frontier with
      | inl final =>
        rw [stepped] at decided
        exact decided
      | inr next =>
        rw [stepped] at decided
        exact ih (Nat.le_of_succ_le_succ le) decided

/-- Either the start alone decides the search, under whatever limits, or rounds have to. -/
theorem search_cases (space : StateSpace S K) (visited : VisitedSet K) (initial : S) :
    (∃ outcome, (∀ limits rounds, search space limits rounds visited initial = some outcome) ∧
      outcome.progress.stats.expansions = 0 ∧ ∀ reason, outcome.verdict ≠ .stopped reason) ∨
    (space.key initial ∉ visited ∧ space.isDeadEnd initial = false ∧
        space.isGoal initial = false) ∧
      ∀ limits rounds, search space limits rounds visited initial =
        run space limits rounds (start space visited initial) := by
  unfold search
  by_cases known : space.key initial ∈ visited
  · exact .inl ⟨⟨.exhausted, { visited }⟩, by simp [known], rfl, by simp⟩
  · by_cases deadEnd : space.isDeadEnd initial = true
    · exact .inl ⟨⟨.exhausted, ({ visited } : Progress K).countPruned⟩, by simp [known, deadEnd],
        rfl, by simp⟩
    · by_cases goal : space.isGoal initial = true
      · exact .inl ⟨⟨.found [initial], { visited }⟩, by simp [known, deadEnd, goal], rfl, by simp⟩
      · exact .inr ⟨⟨known, by simpa using deadEnd, by simpa using goal⟩,
          by simp [known, deadEnd, goal]⟩

theorem search_of_le (le : rounds ≤ more)
    (decided : search space limits rounds visited initial = some outcome) :
    search space limits more visited initial = some outcome := by
  rcases search_cases space visited initial with ⟨answer, atOnce, -⟩ | ⟨-, inRounds⟩
  · rw [atOnce] at decided ⊢
    exact decided
  · rw [inRounds] at decided ⊢
    exact run_of_le le decided

end BreadthFirst

namespace Solver

/-- The solver answers with the outcome once it is given enough rounds. -/
def Answers (solver : Solver) (space : StateSpace S K) (visited : VisitedSet K) (initial : S)
    (outcome : Outcome S K) : Prop :=
  ∃ rounds, solver.run space rounds visited initial = some outcome

variable {solver : Solver} {outcome other : Outcome S K}

theorem Answers.unique (answers : solver.Answers space visited initial outcome)
    (answers' : solver.Answers space visited initial other) : outcome = other := by
  obtain ⟨strategy, limits⟩ := solver
  obtain ⟨rounds, answered⟩ := answers
  obtain ⟨rounds', answered'⟩ := answers'
  cases strategy with
  | dfs =>
    cases answered
    cases answered'
    rfl
  | bfs =>
    have left := BreadthFirst.search_of_le (Nat.le_max_left rounds rounds') answered
    have right := BreadthFirst.search_of_le (Nat.le_max_right rounds rounds') answered'
    exact Option.some.inj (left.symm.trans right)

theorem answers_dfs_iff {limits : Limits} :
    (⟨.dfs, limits⟩ : Solver).Answers space visited initial outcome ↔
      DepthFirst.search space limits visited initial = outcome := by
  constructor
  · rintro ⟨rounds, answered⟩
    exact Option.some.inj answered
  · intro searched
    exact ⟨0, congrArg some searched⟩

end Solver

end SearchSpace
