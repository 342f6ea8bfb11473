import SearchSpace.Proofs.Counters
import SearchSpace.Proofs.Limits

/-!
# What a search leaves in the visited set

A search only adds keys to the set it is handed, and only those of states that it can approach.
Where it is stopped it leaves behind what it has met so far: a search that may go further takes the
same steps up to there, and so it meets all of that too.
-/

namespace SearchSpace

universe u v

variable {S : Type u} {K : Type v} [BEq K] [Hashable K] {space : StateSpace S K}
  {limits more : Limits} {visited : VisitedSet K} {initial : S} {outcome other : Outcome S K}

/-! ## Depth-first search -/

namespace DepthFirst

/-- The visited set where a search is, or where it has ended. -/
def marked : Outcome S K ⊕ Machine S K → VisitedSet K
  | .inl outcome => outcome.visited
  | .inr (.enter _ _ progress) => progress.visited
  | .inr (.browse _ _ progress) => progress.visited
  | .inr (.leave _ _ progress) => progress.visited

variable {machine next : Machine S K} {config config' : Outcome S K ⊕ Machine S K}

/-- A step that goes on does not depend on how much further it may go. -/
theorem Turn.relax (turn : Turn space limits machine (.inr next)) (le : limits ≤ more) :
    Turn space more machine (.inr next) := by
  have deeper : limits.maxDepth.toNat ≤ more.maxDepth.toNat :=
    UInt64.le_iff_toNat_le.1 (Limits.le_iff.1 le).1
  cases turn with
  | deadEnd shallow deadEnd => exact .deadEnd (shallow.trans deeper) deadEnd
  | expanded shallow alive noGoal unspent =>
    exact .expanded (shallow.trans deeper) alive noGoal (Limits.spent_mono le unspent)
  | done => exact .done
  | seen known => exact .seen known
  | enters fresh => exact .enters fresh
  | returns => exact .returns

variable [LawfulBEq K]

/-- No step takes a key away. -/
theorem Turn.marked_subset (turn : Turn space limits machine config) :
    (marked (.inr machine)).toSet ⊆ (marked config).toSet := by
  have marks : ∀ (progress : Progress K) key,
      progress.visited.toSet ⊆ (progress.mark key).visited.toSet :=
    fun progress key => VisitedSet.subset_insert
  cases turn with
  | spent => exact marks _ _
  | expanded => exact marks _ _
  | returns => exact marks _ _
  | _ => exact subset_rfl

theorem Runs.marked_subset (runs : Runs space limits config config') :
    (marked config).toSet ⊆ (marked config').toSet := by
  induction runs with
  | refl => exact subset_rfl
  | tail _ next ih =>
    obtain ⟨machine, rfl, rfl⟩ := next
    exact ih.trans (turn_step space limits machine).marked_subset

/-- Where a search ends it leaves no more behind than one that may go further has met after the same
step. -/
theorem Turn.ended_subset (turn : Turn space limits machine (.inl outcome))
    (turn' : Turn space more machine config) (le : limits ≤ more) :
    outcome.visited.toSet ⊆ (marked config).toSet := by
  cases turn with
  | tooDeep => exact turn'.marked_subset
  | goal => exact turn'.marked_subset
  | exhausted => exact turn'.marked_subset
  | spent shallow alive noGoal =>
    -- The state has been marked before the budget is looked at.
    have deeper : limits.maxDepth.toNat ≤ more.maxDepth.toNat :=
      UInt64.le_iff_toNat_le.1 (Limits.le_iff.1 le).1
    cases turn' with
    | tooDeep deep => exact absurd deep (Nat.not_lt.2 (shallow.trans deeper))
    | deadEnd _ deadEnd =>
      rw [alive] at deadEnd
      cases deadEnd
    | goal _ _ goal =>
      rw [noGoal] at goal
      cases goal
    | spent => exact subset_rfl
    | expanded => exact subset_rfl

/-- A search that may go further meets all that is met before. -/
theorem Runs.visited_subset (runs : Runs space limits config (.inl outcome))
    (runs' : Runs space more config (.inl other)) (le : limits ≤ more) :
    outcome.visited.toSet ⊆ other.visited.toSet := by
  induction runs using Relation.ReflTransGen.head_induction_on with
  | refl =>
    cases eq_of_runs_inl runs'
    exact subset_rfl
  | @head config config' first onward ih =>
    obtain ⟨machine, rfl, stepped⟩ := first
    have turn := turn_step space limits machine
    rw [stepped] at turn
    rcases runs'.cases_head with impossible | ⟨later, ⟨_, same, stepped'⟩, onward'⟩
    · cases impossible
    cases same
    cases config' with
    | inl ended =>
      cases eq_of_runs_inl onward
      have turn' := turn_step space more machine
      rw [stepped'] at turn'
      exact (turn.ended_subset turn' le).trans (Runs.marked_subset onward')
    | inr next =>
      rw [(turn.relax le).step_eq] at stepped'
      rw [← stepped'] at onward'
      exact ih onward'

end DepthFirst

/-! ## Breadth-first search -/

namespace BreadthFirst

variable {frontier next : Frontier S K} {rounds rounds' : Nat}

/-- A round that goes on does not depend on how much further the search may go. -/
theorem step_eq_of_le (stepped : step space limits frontier = .inr next) (le : limits ≤ more) :
    step space more frontier = .inr next := by
  have round := round_step space limits frontier
  rw [stepped] at round
  obtain ⟨unspent, -⟩ := round.undecided
  rw [← stepped]
  refine step_relax limits (fun reason impossible => ?_) fun _ _ => Limits.spent_mono le unspent
  rw [stepped] at impossible
  cases impossible

variable [LawfulBEq K]

/-- No round takes a key away. -/
theorem Round.visited_subset (round : Round space limits frontier (.inr next)) :
    frontier.progress.visited.toSet ⊆ next.progress.visited.toSet := by
  cases round with
  | @expanded trail _ _ _ _ _ _ progress =>
    obtain ⟨kept, dead, -, sifting⟩ := exists_sifting space trail (space.successors trail.state)
      frontier.progress.countExpanded
    rw [progress]
    exact fun key known => (sifting.visited_iff key).2 (.inl known)

theorem visited_subset_of_run (decided : run space limits rounds frontier = some outcome) :
    frontier.progress.visited.toSet ⊆ outcome.visited.toSet := by
  obtain ⟨last, subset, round⟩ := exists_last_round
    (P := fun later => frontier.progress.visited.toSet ⊆ later.progress.visited.toSet)
    (fun subset round => subset.trans round.visited_subset) subset_rfl decided
  rwa [Outcome.visited, round.progress_eq]

/-- A search that may go further meets all that is met before. -/
theorem run_visited_subset (decided : run space limits rounds frontier = some outcome)
    (decided' : run space more rounds' frontier = some other) (le : limits ≤ more) :
    outcome.visited.toSet ⊆ other.visited.toSet := by
  induction rounds generalizing frontier rounds' with
  | zero => cases decided
  | succ rounds ih =>
    rcases run_succ_cases decided with ⟨-, round⟩ | ⟨next, stepped, -, onward⟩
    · rw [Outcome.visited, round.progress_eq]
      exact visited_subset_of_run decided'
    · cases rounds' with
      | zero => cases decided'
      | succ rounds' =>
        rw [run, step_eq_of_le stepped le] at decided'
        exact ih onward decided'

end BreadthFirst

namespace Solver

variable {strategy : Strategy} {record : Record S} {report : Report S} {limit : UInt64}

/-! ## What is left behind -/

namespace Course

/-- No key is taken away. -/
theorem mem_visited (course : Course space visited initial strategy record outcome) {key : K}
    (known : key ∈ visited) : key ∈ outcome.visited := by
  cases course with
  | known => exact known
  | deadEnd => exact known
  | goal => exact known
  | searched _ _ _ account => exact account.mem_visited known

/-- Any other key is that of a state that the search can approach. -/
theorem exists_approaches (course : Course space visited initial strategy record outcome) {key : K}
    (member : key ∈ outcome.visited) (new : key ∉ visited) :
    ∃ state, space.Approaches visited.toSet initial state ∧ space.key state = key := by
  cases course with
  | known => exact absurd member new
  | deadEnd => exact absurd member new
  | goal => exact absurd member new
  | searched _ _ _ account =>
    obtain ⟨state, met, same⟩ :=
      List.mem_map.1 (((account.visited_iff key).1 member).resolve_left new)
    exact ⟨state, account.approached state met, same⟩

/-- A start that decides the search leaves no key behind. -/
theorem visited_eq_of_start (course : Course space visited initial strategy record outcome)
    (decides : space.key initial ∈ visited ∨ space.isDeadEnd initial = true ∨
      space.isGoal initial = true) : outcome.visited = visited := by
  cases course with
  | known => rfl
  | deadEnd => rfl
  | goal => rfl
  | searched fresh alive noGoal =>
    rw [alive, noGoal] at decides
    rcases decides with known | impossible | impossible
    · exact absurd known fresh
    · cases impossible
    · cases impossible

/-- All states on the way to a goal are marked, and the goal itself only if it was queued. -/
theorem mem_visited_of_path (course : Course space visited initial strategy record outcome)
    (reported : outcome.report = .ok report) (beyond : 1 ≤ report.path.transitions) :
    ∃ goal, report.path.last? = some goal ∧
      (space.key goal ∈ outcome.visited ↔ strategy = .bfs) ∧
      ∀ state ∈ report.path.states.dropLast, space.key state ∈ outcome.visited := by
  cases course with
  | known => cases reported; cases beyond
  | deadEnd => cases reported; cases beyond
  | goal => cases reported; cases beyond
  | @searched record waiting outcome _ _ _ account ended =>
    obtain ⟨verdict, progress⟩ := outcome
    have passed : ∀ {passed : List S} {goal : S}, (∀ state ∈ passed, state ∈ record.expanded) →
        ∀ state ∈ (passed ++ [goal]).dropLast, space.key state ∈ progress.visited := by
      intro passed goal expanded state member
      rw [List.dropLast_concat] at member
      exact account.key_mem_visited
        (List.mem_append_left _ (Record.mem_states_of_expanded (expanded state member)))
    cases ended with
    | exhausted => cases reported; cases beyond
    | @unmarked states goal expanded unmarked =>
      cases reported
      exact ⟨goal, List.getLast?_concat, iff_of_false unmarked (by simp), passed expanded⟩
    | @dequeued states rest goal expanded =>
      cases reported
      have marked := account.key_mem_visited (List.mem_append_right _ List.mem_cons_self)
      exact ⟨goal, List.getLast?_concat, iff_of_true marked rfl, passed expanded⟩
    | refused => cases reported
    | tooDeep => cases reported

/-- A search that is stopped has marked one key more than its limit says. -/
theorem size_of_stopped (course : Course space visited initial strategy record outcome)
    (stopped : outcome.verdict = .stopped (.expansions limit) ∨
      outcome.verdict = .stopped (.depth limit)) :
    visited.size + limit.toNat + 1 ≤ outcome.visited.size := by
  cases course with
  | known => simp at stopped
  | deadEnd => simp at stopped
  | goal => simp at stopped
  | @searched record waiting outcome _ _ _ account ended =>
    have size : outcome.visited.size = _ := account.size_eq
    rw [size]
    simp only [Record.states, List.length_append]
    obtain ⟨verdict, progress⟩ := outcome
    cases ended with
    | exhausted => simp at stopped
    | unmarked => simp at stopped
    | dequeued => simp at stopped
    | refused le =>
      obtain rfl : _ = limit := by simpa using stopped
      rw [List.length_cons]
      omega
    | tooDeep less =>
      obtain rfl : _ = limit := by simpa using stopped
      omega

end Course

variable [LawfulBEq K]

/-- A search that may go further meets all that is met before. -/
theorem Answers.visited_subset
    (answers : (⟨strategy, limits⟩ : Solver).Answers space visited initial outcome)
    (answers' : (⟨strategy, more⟩ : Solver).Answers space visited initial other)
    (le : limits ≤ more) : outcome.visited.toSet ⊆ other.visited.toSet := by
  cases strategy with
  | dfs =>
    obtain rfl := answers_dfs_iff.1 answers
    obtain rfl := answers_dfs_iff.1 answers'
    exact (DepthFirst.runs_start space limits visited initial).visited_subset
      (DepthFirst.runs_start space more visited initial) le
  | bfs =>
    obtain ⟨rounds, answered⟩ := answers
    obtain ⟨rounds', answered'⟩ := answers'
    rcases BreadthFirst.search_cases space visited initial with ⟨answer, atOnce, -⟩ | ⟨-, inRounds⟩
    · cases answered.symm.trans (atOnce limits rounds)
      cases answered'.symm.trans (atOnce more rounds')
      exact subset_rfl
    · exact BreadthFirst.run_visited_subset ((inRounds limits rounds).symm.trans answered)
        ((inRounds more rounds').symm.trans answered') le

/-- A search that is not stopped meets all that is met under any other limits. -/
theorem Answers.visited_subset_of_report
    (answers : (⟨strategy, limits⟩ : Solver).Answers space visited initial outcome)
    (answers' : (⟨strategy, more⟩ : Solver).Answers space visited initial other)
    (reported : other.report = .ok report) : outcome.visited.toSet ⊆ other.visited.toSet := by
  -- The report is also given without a budget and down to any greater depth.
  rcases UInt64.le_total limits.maxDepth more.maxDepth with le | le
  · have unlimited := answers'.unlimited reported (UInt64.le_refl more.maxDepth)
    exact answers.visited_subset unlimited (Limits.le_iff.2 ⟨le, by simp⟩)
  · have unlimited := answers'.unlimited reported le
    exact answers.visited_subset unlimited (Limits.le_iff.2 ⟨UInt64.le_refl _, by simp⟩)

/-- What a search does to the visited set it is handed, however it ends. It takes no key away, and
adds only those of states that it can approach. A start that was visited before, or is a dead end or
a goal, leaves the set as it is. All states before the goal are in it in the end, and the goal only
after a breadth-first search. A search that is stopped has added one key more than the limit says,
and none that it would not add if it were allowed to answer. -/
theorem run_footprint
    (answers : (⟨strategy, limits⟩ : Solver).Answers space visited initial outcome) :
    (∀ key ∈ visited, key ∈ outcome.visited) ∧
    (∀ key ∈ outcome.visited, key ∉ visited →
      ∃ state, space.Approaches visited.toSet initial state ∧ space.key state = key) ∧
    (space.key initial ∈ visited ∨ space.isDeadEnd initial = true ∨ space.isGoal initial = true →
      outcome.visited = visited) ∧
    (∀ report, outcome.report = .ok report → 1 ≤ report.path.transitions →
      ∃ goal, report.path.last? = some goal ∧
        (space.key goal ∈ outcome.visited ↔ strategy = .bfs) ∧
        ∀ state ∈ report.path.states.dropLast, space.key state ∈ outcome.visited) ∧
    (∀ limit, outcome.report = .error (.expansions limit) ∨ outcome.report = .error (.depth limit) →
      visited.size + limit.toNat + 1 ≤ outcome.visited.size) ∧
    (∀ reason more outcome' report, outcome.report = .error reason →
      (⟨strategy, more⟩ : Solver).Answers space visited initial outcome' →
      outcome'.report = .ok report → ∀ key ∈ outcome.visited, key ∈ outcome'.visited) := by
  obtain ⟨record, records⟩ := answers.exists_records
  have course := records.course
  refine ⟨fun key => course.mem_visited, fun key => course.exists_approaches,
    course.visited_eq_of_start, fun report => course.mem_visited_of_path, ?_, ?_⟩
  · intro limit stopped
    rw [Outcome.report_eq_error_iff, Outcome.report_eq_error_iff] at stopped
    exact course.size_of_stopped stopped
  · intro reason more outcome' report _ answers' reported key member
    exact answers.visited_subset_of_report answers' reported member

/-- Among the twins a depth-first search marks the nodes on the way to the goal, and has marked two
when it is stopped one step before. -/
theorem run_footprint_twins : ∃ outcome outcome' report,
    (⟨.dfs, { maxDepth := 1 }⟩ : Solver).Answers Graph.twins.space (.ofList [9]) 0 outcome ∧
    outcome.report = .error (.depth 1) ∧
    (VisitedSet.ofList [9]).size + 2 ≤ outcome.visited.size ∧
    (⟨.dfs, { maxDepth := 2 }⟩ : Solver).Answers Graph.twins.space (.ofList [9]) 0 outcome' ∧
    outcome'.report = .ok report ∧ report.path.states = [0, 1, 4] ∧
    9 ∈ outcome'.visited ∧ 0 ∈ outcome'.visited ∧ 1 ∈ outcome'.visited ∧ 4 ∉ outcome'.visited ∧
    ∀ key ∈ outcome.visited, key ∈ outcome'.visited := by
  obtain ⟨stopped, found⟩ :
      (DepthFirst.search Graph.twins.space { maxDepth := 1 } (.ofList [9]) 0).verdict =
        .stopped (.depth 1) ∧
      (DepthFirst.search Graph.twins.space { maxDepth := 2 } (.ofList [9]) 0).verdict =
        .found [0, 1, 4] := by
    simp [DepthFirst.search, Graph.twins, Graph.space, Graph.successors, Graph.key,
      DepthFirst.explore, DepthFirst.firstRoute, VisitedSet.mem_ofList, VisitedSet.mem_insert,
      Limits.spent]
  have answers := answers_dfs_iff.2
    (Eq.refl (DepthFirst.search Graph.twins.space { maxDepth := 1 } (.ofList [9]) 0))
  have answers' := answers_dfs_iff.2
    (Eq.refl (DepthFirst.search Graph.twins.space { maxDepth := 2 } (.ofList [9]) 0))
  have failed := Outcome.report_eq_error_iff.2 stopped
  have reported := Outcome.report_of_found found
  obtain ⟨-, -, -, -, size, kept⟩ := run_footprint answers
  obtain ⟨stays, -, -, path, -, -⟩ := run_footprint answers'
  obtain ⟨goal, last, marked, passed⟩ := path _ reported (by decide)
  cases last
  refine ⟨_, _, _, answers, failed, size 1 (.inr failed), answers', reported, rfl,
    stays 9 (VisitedSet.mem_ofList.2 (by decide)), passed 0 (by decide), passed 1 (by decide),
    fun impossible => ?_, kept _ _ _ _ failed answers' reported⟩
  cases marked.1 impossible

end Solver

end SearchSpace
