import SearchSpace.Proofs.Agreement
import SearchSpace.Proofs.BreadthFirst.Account
import SearchSpace.Proofs.DepthFirst.Account

/-!
# What the counters say

The counters of a search count what it did: the states expanded, the states given up, and the keys
that are new in the visited set. A search that was not stopped has done with every state that it
met, but for those that a breadth-first search leaves in its queue when it finds a goal. States of
equal keys need have nothing else in common for that.
-/

namespace SearchSpace

universe u v

variable {S : Type u} {K : Type v} [BEq K] [Hashable K] {space : StateSpace S K} {solver : Solver}
  {visited : VisitedSet K} {initial : S} {outcome : Outcome S K} {report : Report S}
  {record : Record S}

/-! ## The course of a search -/

namespace Solver

/-- The record of a search is that of its steps, or of its rounds. -/
def Records (solver : Solver) (space : StateSpace S K) (visited : VisitedSet K) (initial : S)
    (record : Record S) (outcome : Outcome S K) : Prop :=
  match solver.strategy with
  | .dfs => Recorded (DepthFirst.step space solver.limits)
      (DepthFirst.Machine.work space solver.limits) .empty
      (DepthFirst.start space visited initial) record (.inl outcome)
  | .bfs => Recorded (BreadthFirst.step space solver.limits)
      (BreadthFirst.Frontier.work space solver.limits)
      (BreadthFirst.opening space visited initial).1
      (BreadthFirst.opening space visited initial).2 record (.inl outcome)

/-- The courses that a search can take: its start may leave nothing to be done, or the search is
accounted for. -/
inductive Course (space : StateSpace S K) (visited : VisitedSet K) (initial : S)
    (strategy : Strategy) : Record S → Outcome S K → Prop
  | known : space.key initial ∈ visited →
      Course space visited initial strategy .empty ⟨.exhausted, { visited }⟩
  | deadEnd : space.key initial ∉ visited → space.isDeadEnd initial = true →
      Course space visited initial strategy (.prune [initial])
        ⟨.exhausted, ({ visited } : Progress K).countPruned⟩
  | goal : space.key initial ∉ visited → space.isDeadEnd initial = false →
      space.isGoal initial = true →
      Course space visited initial strategy .empty ⟨.found [initial], { visited }⟩
  | searched {record : Record S} {waiting : List S} {outcome : Outcome S K} :
      space.key initial ∉ visited → space.isDeadEnd initial = false →
      space.isGoal initial = false →
      Account space visited initial record waiting outcome.progress →
      Ended space record outcome.visited strategy waiting outcome.verdict →
      Course space visited initial strategy record outcome

/-- The record of a depth-first search says which course it took. -/
theorem Course.of_dfs [LawfulBEq K] {limits : Limits}
    (recorded : Recorded (DepthFirst.step space limits) (DepthFirst.Machine.work space limits)
      .empty (DepthFirst.start space visited initial) record (.inl outcome)) :
    Course space visited initial .dfs record outcome := by
  by_cases known : space.key initial ∈ visited
  · have begun : DepthFirst.start space visited initial = .inl ⟨.exhausted, { visited }⟩ :=
      if_pos known
    rw [begun] at recorded
    obtain ⟨rfl, same⟩ := recorded.eq_of_inl
    cases same
    exact .known known
  have begun : DepthFirst.start space visited initial =
      .inr (.enter initial [] { visited }) := if_neg known
  have shallow : ([] : List (DepthFirst.Frame S)).length ≤ limits.maxDepth.toNat := Nat.zero_le _
  cases alive : space.isDeadEnd initial with
  | true =>
    -- The start is entered, given up and left.
    have entered : DepthFirst.step space limits (.enter initial [] { visited }) = _ :=
      (DepthFirst.Turn.deadEnd shallow alive).step_eq
    rw [begun] at recorded
    rcases recorded.cases_first with ⟨-, impossible⟩ | left
    · cases impossible
    rw [DepthFirst.Machine.work, entered] at left
    rcases left.cases_first with ⟨-, impossible⟩ | ended
    · cases impossible
    obtain ⟨rfl, same⟩ := ended.eq_of_inl
    cases same
    exact .deadEnd known alive
  | false =>
    cases goal : space.isGoal initial with
    | true =>
      have entered : DepthFirst.step space limits (.enter initial [] { visited }) = _ :=
        (DepthFirst.Turn.goal shallow alive goal).step_eq
      rw [begun] at recorded
      rcases recorded.cases_first with ⟨-, impossible⟩ | ended
      · cases impossible
      rw [DepthFirst.Machine.work, entered] at ended
      obtain ⟨rfl, same⟩ := ended.eq_of_inl
      cases same
      exact .goal known alive goal
    | false =>
      obtain ⟨waiting, account, ended⟩ := DepthFirst.exists_account known alive recorded
      exact .searched known alive goal account ended

/-- The record of a breadth-first search says which course it took. -/
theorem Course.of_bfs [LawfulBEq K] {limits : Limits}
    (recorded : Recorded (BreadthFirst.step space limits)
      (BreadthFirst.Frontier.work space limits) (BreadthFirst.opening space visited initial).1
      (BreadthFirst.opening space visited initial).2 record (.inl outcome)) :
    Course space visited initial .bfs record outcome := by
  by_cases known : space.key initial ∈ visited
  · rw [BreadthFirst.opening, if_pos known] at recorded
    obtain ⟨rfl, same⟩ := recorded.eq_of_inl
    cases same
    exact .known known
  cases alive : space.isDeadEnd initial with
  | true =>
    rw [BreadthFirst.opening, if_neg known, if_pos alive] at recorded
    obtain ⟨rfl, same⟩ := recorded.eq_of_inl
    cases same
    exact .deadEnd known alive
  | false =>
    cases goal : space.isGoal initial with
    | true =>
      have begun : BreadthFirst.opening space visited initial =
          (.empty, .inl ⟨.found [initial], { visited }⟩) := by
        simp [BreadthFirst.opening, known, alive, goal]
      rw [begun] at recorded
      obtain ⟨rfl, same⟩ := recorded.eq_of_inl
      cases same
      exact .goal known alive goal
    | false =>
      obtain ⟨waiting, account, ended⟩ := BreadthFirst.exists_account known alive goal recorded
      exact .searched known alive goal account ended

theorem Records.course [LawfulBEq K]
    (records : solver.Records space visited initial record outcome) :
    Course space visited initial solver.strategy record outcome := by
  obtain ⟨strategy, limits⟩ := solver
  cases strategy with
  | dfs => exact .of_dfs records
  | bfs => exact .of_bfs records

/-- Every answer is recorded. -/
theorem Answers.exists_records (answers : solver.Answers space visited initial outcome) :
    ∃ record, solver.Records space visited initial record outcome := by
  obtain ⟨strategy, limits⟩ := solver
  cases strategy with
  | dfs =>
    obtain rfl := answers_dfs_iff.1 answers
    exact DepthFirst.exists_recorded space limits visited initial
  | bfs =>
    obtain ⟨rounds, answered⟩ := answers
    exact BreadthFirst.exists_recorded answered

/-! ## Counters -/

namespace Course

variable {strategy : Strategy}

/-- The counters are those of the record. -/
theorem stats_eq (course : Course space visited initial strategy record outcome) :
    outcome.progress.stats.expansions = record.expanded.length ∧
      outcome.progress.stats.pruned = record.pruned.length := by
  cases course with
  | known => exact ⟨rfl, rfl⟩
  | deadEnd => exact ⟨rfl, rfl⟩
  | goal => exact ⟨rfl, rfl⟩
  | searched _ _ _ account => rw [account.stats_eq]; exact ⟨rfl, rfl⟩

/-- As many keys are counted as the visited set has gained. -/
theorem size_eq (course : Course space visited initial strategy record outcome) :
    outcome.visited.size = visited.size + outcome.progress.stats.visited := by
  cases course with
  | known => rfl
  | deadEnd => rfl
  | goal => rfl
  | searched _ _ _ account => rw [account.stats_eq]; exact account.size_eq

/-- No key is recorded twice. -/
theorem nodup (course : Course space visited initial strategy record outcome) :
    (record.states.map space.key).Nodup := by
  cases course with
  | known => exact List.nodup_nil
  | deadEnd => exact List.nodup_singleton _
  | goal => exact List.nodup_nil
  | searched _ _ _ account =>
    have distinct := account.distinct
    rw [List.map_append] at distinct
    exact distinct.of_append_left

/-- A search that leaves nothing waiting has expanded or given up all states whose keys it has
marked. -/
theorem visited_eq (course : Course space visited initial strategy record outcome)
    (alive : space.isDeadEnd initial = false) (reported : outcome.report = .ok report)
    (settled : strategy = .dfs ∨ report.isSolved = false) :
    outcome.progress.stats.visited =
      outcome.progress.stats.expansions + outcome.progress.stats.pruned := by
  cases course with
  | known => rfl
  | deadEnd _ dead =>
    rw [alive] at dead
    cases dead
  | goal => rfl
  | @searched record waiting outcome _ _ _ account ended =>
    have nothingWaits : waiting = [] := by
      obtain ⟨verdict, progress⟩ := outcome
      cases ended with
      | exhausted => rfl
      | unmarked => rfl
      | dequeued =>
        cases reported
        simp [Report.isSolved, Path.isEmpty] at settled
      | refused => cases reported
      | tooDeep => rfl
    rw [account.stats_eq, nothingWaits, List.append_nil, Record.states, List.length_append]

/-- A breadth-first search that finds a goal behind its start leaves at least that goal waiting. -/
theorem lt_visited (course : Course space visited initial .bfs record outcome)
    (reported : outcome.report = .ok report) (beyond : 1 ≤ report.path.transitions) :
    outcome.progress.stats.expansions + outcome.progress.stats.pruned <
      outcome.progress.stats.visited := by
  cases course with
  | known => cases reported; cases beyond
  | deadEnd => cases reported; cases beyond
  | goal => cases reported; cases beyond
  | @searched record waiting outcome _ _ _ account ended =>
    have goalWaits : 0 < waiting.length := by
      obtain ⟨verdict, progress⟩ := outcome
      cases ended with
      | exhausted => cases reported; cases beyond
      | dequeued => exact Nat.succ_pos _
      | refused => exact Nat.succ_pos _
    rw [account.stats_eq]
    simp only [Record.states, List.length_append]
    omega

end Course

variable [LawfulBEq K]

/-- The account of a search that was not stopped, whatever states its keys take for one. As many
keys are counted as the visited set has gained. Nothing is counted if the start was visited before,
and one dead end if it is one. Any other depth-first search, and one that finds no goal, has
expanded or given up all the keys that it has counted; a breadth-first search that finds a goal
behind its start has one more at least. No key is expanded or given up twice. -/
theorem run_accounts (answers : solver.Answers space visited initial outcome)
    (reported : outcome.report = .ok report) :
    outcome.visited.size = visited.size + report.stats.visited ∧
    (space.key initial ∈ visited → report.stats = {}) ∧
    (space.key initial ∉ visited → space.isDeadEnd initial = true →
      report.stats = { pruned := 1 }) ∧
    (space.key initial ∉ visited → space.isDeadEnd initial = false →
      (solver.strategy = .dfs ∨ report.isSolved = false →
        report.stats.visited = report.stats.expansions + report.stats.pruned) ∧
      (solver.strategy = .bfs → 1 ≤ report.path.transitions →
        report.stats.expansions + report.stats.pruned + 1 ≤ report.stats.visited)) ∧
    (∃ record, solver.Records space visited initial record outcome) ∧
    ∀ record, solver.Records space visited initial record outcome →
      record.expanded.length = report.stats.expansions ∧
      record.pruned.length = report.stats.pruned ∧
      ((record.expanded ++ record.pruned).map space.key).Nodup := by
  rw [Outcome.stats_of_report reported]
  obtain ⟨record, records⟩ := answers.exists_records
  have course := records.course
  refine ⟨course.size_eq, fun known => ?_, fun fresh deadEnd => ?_, fun fresh alive => ⟨?_, ?_⟩,
    ⟨record, records⟩, fun record records => ?_⟩
  · rw [answers.eq_of_mem known]
  · rw [answers.eq_of_isDeadEnd fresh deadEnd]
    rfl
  · exact course.visited_eq alive reported
  · intro breadthFirst beyond
    rw [breadthFirst] at course
    exact course.lt_visited reported beyond
  · obtain ⟨expansions, pruned⟩ := records.course.stats_eq
    exact ⟨expansions.symm, pruned.symm, records.course.nodup⟩

/-- Among the twins the goal is found while one more node waits. -/
theorem run_accounts_twins : ∃ outcome report record,
    (⟨.bfs, {}⟩ : Solver).Answers Graph.twins.space (.ofList [9]) 0 outcome ∧
    outcome.report = .ok report ∧ report.path.states = [0, 1, 4] ∧ report.stats = ⟨3, 1, 6⟩ ∧
    outcome.visited.size = (VisitedSet.ofList [9]).size + 6 ∧
    (⟨.bfs, {}⟩ : Solver).Records Graph.twins.space (.ofList [9]) 0 record outcome ∧
    record.expanded.length = 3 ∧ record.pruned.length = 1 ∧
    ((record.expanded ++ record.pruned).map Graph.twins.space.key).Nodup := by
  obtain ⟨outcome, answered, found, stats⟩ : ∃ outcome,
      BreadthFirst.search Graph.twins.space {} Graph.twins.rounds (.ofList [9]) 0 =
        some outcome ∧ outcome.verdict = .found [0, 1, 4] ∧
      outcome.progress.stats = ⟨3, 1, 6⟩ := by
    simp [BreadthFirst.search, Graph.twins, Graph.space, Graph.rounds, Graph.successors, Graph.key,
      BreadthFirst.run, BreadthFirst.step, BreadthFirst.start, BreadthFirst.newTrails,
      VisitedSet.mem_ofList, VisitedSet.mem_insert, Queue.ofList, Queue.pop?, Queue.append,
      Limits.spent, Trail.extend, Trail.toList, Progress.stats_mark_of_notMem]
  have answers : (⟨.bfs, {}⟩ : Solver).Answers Graph.twins.space (.ofList [9]) 0 outcome :=
    ⟨_, answered⟩
  have reported := Outcome.report_of_found found
  obtain ⟨size, -, -, -, ⟨record, records⟩, counted⟩ := run_accounts answers reported
  rw [stats] at size counted
  exact ⟨outcome, _, record, answers, reported, rfl, stats, size, records,
    counted record records⟩

end Solver

end SearchSpace
