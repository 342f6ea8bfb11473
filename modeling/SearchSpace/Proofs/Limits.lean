import SearchSpace.Proofs.Answers
import SearchSpace.Proofs.BreadthFirst.Round
import SearchSpace.Proofs.DepthFirst.Exploration
import SearchSpace.Proofs.Graph

/-!
# What limits decide

Limits decide whether a search answers, and never what. A search that was not stopped does the same
under all limits that leave it room: it goes as deep and expands as many states as before. A budget
that is too small stops it, and for no other reason.
-/

namespace SearchSpace

universe u v

variable {S : Type u} {K : Type v} [BEq K] [Hashable K] {space : StateSpace S K}
  {limits more tight : Limits} {limit : UInt64}

namespace DepthFirst.Explores

variable {remaining deeper : Nat} {task : Task S} {entered : List S} {before after : Progress K}
  {verdict : Verdict S}

/-- The states expanded below a state come on top of the state itself. -/
theorem succ_expansions_le {key : K} {listed : List S}
    (explores : Explores space limits remaining (.siblings listed) entered
      (before.mark key).countExpanded verdict after) :
    before.stats.expansions + 1 ≤ after.stats.expansions := by
  have le := explores.expansions_le
  rwa [Progress.stats_countExpanded, Progress.expansions_mark] at le

/-- Limits that leave room for what was done change nothing. Only an exploration that went too deep
must not be allowed to go deeper. -/
theorem relax (explores : Explores space limits remaining task entered before verdict after)
    (le : remaining ≤ deeper) (within : more.Within after.stats.expansions)
    (stopped : ∀ reason, verdict = .stopped reason →
      reason = .depth more.maxDepth ∧ deeper = remaining) :
    Explores space more deeper task entered before verdict after := by
  induction explores generalizing deeper with
  | tooDeep =>
    obtain ⟨same, rfl⟩ := stopped _ rfl
    rw [same]
    exact .tooDeep
  | deadEnd deadEnd =>
    cases deeper with
    | zero => omega
    | succ => exact .deadEnd deadEnd
  | goal alive goal =>
    cases deeper with
    | zero => omega
    | succ => exact .goal alive goal
  | spent =>
    obtain ⟨impossible, _⟩ := stopped _ rfl
    cases impossible
  | expanded alive noGoal _ explores ih =>
    cases deeper with
    | zero => omega
    | succ deeper =>
      have unspent := Limits.spent_eq_none_iff.2 (within.of_le explores.succ_expansions_le)
      refine .expanded alive noGoal unspent (ih (Nat.le_of_succ_le_succ le) within ?_)
      intro reason inner
      obtain ⟨same, equal⟩ := stopped reason (Verdict.behind_eq_stopped.2 inner)
      exact ⟨same, Nat.succ.inj equal⟩
  | done => exact .done
  | seen known _ ih => exact .seen known (ih le within stopped)
  | failed fresh _ explores ih ih' =>
    have fewer := explores.expansions_le
    rw [Progress.expansions_mark] at fewer
    refine .failed fresh (ih le (within.of_le fewer) ?_) (ih' le within stopped)
    intro reason impossible
    cases impossible
  | decided fresh undecided _ ih => exact .decided fresh undecided (ih le within stopped)

/-- A budget that is too small for what was done stops the exploration. -/
theorem exists_stopped
    (explores : Explores space limits remaining task entered before verdict after)
    (budget : tight.maxExpansions = some limit) (unspent : before.stats.expansions ≤ limit.toNat)
    (less : limit.toNat < after.stats.expansions) :
    ∃ entered' after', Explores space tight remaining task entered' before
      (.stopped (.expansions limit)) after' := by
  induction explores with
  | tooDeep => omega
  | deadEnd =>
    simp only [Progress.stats_countPruned] at less
    omega
  | goal => omega
  | spent =>
    rw [Progress.expansions_mark] at less
    omega
  | @expanded _ state _ before _ _ alive noGoal _ _ ih =>
    by_cases last : limit.toNat ≤ before.stats.expansions
    · have overspent := Limits.spent_eq_some_iff.2 ⟨budget, last⟩
      exact ⟨_, _, .spent alive noGoal overspent⟩
    · have room := Limits.spent_eq_none_iff.2
        ((Limits.within_iff budget).2 (Nat.lt_of_not_le last))
      have unspent' : ((before.mark (space.key state)).countExpanded).stats.expansions ≤
          limit.toNat := by
        simp only [Progress.stats_countExpanded, Progress.expansions_mark]
        omega
      obtain ⟨entered', after', explores'⟩ := ih unspent' less
      exact ⟨_, after', .expanded alive noGoal room explores'⟩
  | done => omega
  | seen known _ ih =>
    obtain ⟨entered', after', explores'⟩ := ih unspent less
    exact ⟨entered', after', .seen known explores'⟩
  | @failed _ _ _ _ _ _ middle _ _ fresh explores _ ih ih' =>
    by_cases within : middle.stats.expansions ≤ limit.toNat
    · have same := (Limits.within_iff budget).2 within
      obtain ⟨others, after', explores'⟩ := ih' within less
      refine ⟨_, after', .failed fresh (explores.relax (Nat.le_refl _) same ?_) explores'⟩
      intro reason impossible
      cases impossible
    · obtain ⟨entered', after', explores'⟩ := ih unspent (Nat.lt_of_not_le within)
      exact ⟨entered', after', .decided fresh (by simp) explores'⟩
  | decided fresh _ _ ih =>
    obtain ⟨entered', after', explores'⟩ := ih unspent less
    exact ⟨entered', after', .decided fresh (by simp) explores'⟩

/-- Without a budget only the depth stops an exploration. -/
theorem stopped_of_unbounded (unbounded : limits.maxExpansions = none)
    (explores : Explores space limits remaining task entered before verdict after)
    {reason : LimitExceeded} (stopped : verdict = .stopped reason) :
    reason = .depth limits.maxDepth := by
  induction explores with
  | tooDeep =>
    cases stopped
    rfl
  | deadEnd => cases stopped
  | goal => cases stopped
  | spent _ _ overspent =>
    obtain ⟨budget, _⟩ := Limits.spent_eq_some_iff.1 overspent
    rw [unbounded] at budget
    cases budget
  | expanded _ _ _ _ ih => exact ih (Verdict.behind_eq_stopped.1 stopped)
  | done => cases stopped
  | seen _ _ ih => exact ih stopped
  | failed _ _ _ _ ih => exact ih stopped
  | decided _ _ _ ih => exact ih stopped

end DepthFirst.Explores

namespace BreadthFirst

variable {frontier next : Frontier S K} {rounds : Nat} {outcome : Outcome S K}

theorem expansions_le_of_run (decided : run space limits rounds frontier = some outcome) :
    frontier.progress.stats.expansions ≤ outcome.progress.stats.expansions := by
  induction rounds generalizing frontier with
  | zero => cases decided
  | succ rounds ih =>
    rcases run_succ_cases decided with ⟨_, round⟩ | ⟨next, _, round, decided⟩
    · rw [round.progress_eq]
    · have le := ih decided
      obtain ⟨_, more⟩ := round.undecided
      omega

/-- Only a round that looks at the budget can go otherwise under other limits. -/
theorem step_relax (limits : Limits) (unstopped : ∀ reason, step space limits frontier ≠
      .inl ⟨.stopped reason, frontier.progress⟩)
    (room : ∀ next, step space limits frontier = .inr next →
      more.spent frontier.progress.stats.expansions = none) :
    step space more frontier = step space limits frontier := by
  obtain ⟨queue, progress⟩ := frontier
  unfold step at unstopped room ⊢
  dsimp only at unstopped room ⊢
  cases popped : queue.pop? with
  | none => rfl
  | some front =>
    obtain ⟨trail, rest⟩ := front
    simp only [popped] at unstopped room ⊢
    by_cases goal : space.isGoal trail.state = true
    · rw [if_pos goal, if_pos goal]
    · rw [if_neg goal, if_neg goal]
      rw [if_neg goal] at unstopped room
      cases spent : limits.spent progress.stats.expansions with
      | some limit => exact absurd (by rw [spent]) (unstopped (.expansions limit))
      | none =>
        rw [spent] at room
        rw [room _ rfl]

/-- Limits that leave room for what was done change nothing. -/
theorem run_relax (decided : run space limits rounds frontier = some outcome)
    (unstopped : ∀ reason, outcome.verdict ≠ .stopped reason)
    (within : more.Within outcome.progress.stats.expansions) :
    run space more rounds frontier = some outcome := by
  induction rounds generalizing frontier with
  | zero => cases decided
  | succ rounds ih =>
    rw [run]
    rcases run_succ_cases decided with ⟨stepped, _⟩ | ⟨next, stepped, round, decided⟩
    · rw [step_relax limits, stepped]
      · intro reason stopped
        rw [stepped] at stopped
        cases stopped
        exact unstopped reason rfl
      · intro next impossible
        rw [stepped] at impossible
        cases impossible
    · obtain ⟨_, one⟩ := round.undecided
      have fewer := expansions_le_of_run decided
      have room := Limits.spent_eq_none_iff.2 (within.of_le (one ▸ fewer))
      rw [step_relax limits, stepped]
      · exact ih decided
      · intro reason impossible
        rw [stepped] at impossible
        cases impossible
      · exact fun _ _ => room

/-- Where the budget is spent a round that expanded a state is stopped instead. -/
theorem step_of_spent (round : Round space limits frontier (.inr next))
    (overspent : tight.spent frontier.progress.stats.expansions = some limit) :
    step space tight frontier = .inl ⟨.stopped (.expansions limit), frontier.progress⟩ := by
  have tightRound := round_step space tight frontier
  cases round with
  | expanded front noGoal =>
    cases stepped : step space tight frontier with
    | inl outcome =>
      rw [stepped] at tightRound
      cases tightRound with
      | drained empty =>
        rw [front] at empty
        cases empty
      | reached front' goal =>
        rw [front] at front'
        cases front'
        rw [noGoal] at goal
        cases goal
      | refused _ _ overspent' =>
        rw [overspent] at overspent'
        cases overspent'
        rfl
    | inr other =>
      rw [stepped] at tightRound
      obtain ⟨unspent, _⟩ := tightRound.undecided
      rw [overspent] at unspent
      cases unspent

/-- A budget that is too small for what was done stops the search. -/
theorem exists_stopped_run (decided : run space limits rounds frontier = some outcome)
    (budget : tight.maxExpansions = some limit)
    (unspent : frontier.progress.stats.expansions ≤ limit.toNat)
    (less : limit.toNat < outcome.progress.stats.expansions) :
    ∃ final, run space tight rounds frontier = some final ∧
      final.verdict = .stopped (.expansions limit) := by
  induction rounds generalizing frontier with
  | zero => cases decided
  | succ rounds ih =>
    rcases run_succ_cases decided with ⟨_, round⟩ | ⟨next, stepped, round, decided⟩
    · rw [round.progress_eq] at less
      omega
    · obtain ⟨_, one⟩ := round.undecided
      rw [run]
      by_cases last : limit.toNat ≤ frontier.progress.stats.expansions
      · have overspent := Limits.spent_eq_some_iff.2 ⟨budget, last⟩
        rw [step_of_spent round overspent]
        exact ⟨_, rfl, rfl⟩
      · have room := Limits.spent_eq_none_iff.2
          ((Limits.within_iff budget).2 (Nat.lt_of_not_le last))
        rw [step_relax limits, stepped]
        · exact ih decided (by omega)
        · intro reason impossible
          rw [stepped] at impossible
          cases impossible
        · exact fun _ _ => room

/-- The depth limit does not matter to a breadth-first search. -/
theorem step_congr (same : limits.maxExpansions = more.maxExpansions) (frontier : Frontier S K) :
    step space limits frontier = step space more frontier := by
  simp only [step, Limits.spent, same]

theorem run_congr (same : limits.maxExpansions = more.maxExpansions) (rounds : Nat)
    (frontier : Frontier S K) :
    run space limits rounds frontier = run space more rounds frontier := by
  induction rounds generalizing frontier with
  | zero => rfl
  | succ rounds ih =>
    simp only [run, step_congr same, ih]

theorem search_congr (same : limits.maxExpansions = more.maxExpansions) (rounds : Nat)
    (visited : VisitedSet K) (initial : S) :
    search space limits rounds visited initial = search space more rounds visited initial := by
  simp only [search, run_congr same]

/-- No run overspends a budget. -/
theorem within_of_run (decided : run space limits rounds frontier = some outcome)
    (within : limits.Within frontier.progress.stats.expansions) :
    limits.Within outcome.progress.stats.expansions := by
  obtain ⟨last, within', round⟩ :=
    exists_last_round (P := fun frontier => limits.Within frontier.progress.stats.expansions)
      (fun _ round => round.within) within decided
  rwa [round.progress_eq]

/-- Without a budget nothing stops a search. -/
theorem not_stopped_of_run (unbounded : limits.maxExpansions = none)
    (decided : run space limits rounds frontier = some outcome) (reason : LimitExceeded) :
    outcome.verdict ≠ .stopped reason := by
  obtain ⟨last, -, round⟩ :=
    exists_last_round (P := fun _ => True) (fun _ _ => trivial) trivial decided
  cases round with
  | drained => simp
  | reached => simp
  | refused _ _ overspent =>
    obtain ⟨budget, _⟩ := Limits.spent_eq_some_iff.1 overspent
    rw [unbounded] at budget
    cases budget

end BreadthFirst

namespace Solver

variable {strategy : Strategy} {visited : VisitedSet K} {initial : S} {outcome : Outcome S K}
  {report : Report S}

/-- The start alone decides the answer, or an exploration does, or rounds do. -/
theorem Answers.cases
    (answers : (⟨strategy, limits⟩ : Solver).Answers space visited initial outcome) :
    ((∀ more, (⟨strategy, more⟩ : Solver).Answers space visited initial outcome) ∧
      outcome.progress.stats.expansions = 0 ∧ ∀ reason, outcome.verdict ≠ .stopped reason) ∨
    (strategy = .dfs ∧ space.key initial ∉ visited ∧ ∃ entered,
      DepthFirst.Explores space limits (limits.maxDepth.toNat + 1) (.state initial) entered
        { visited } outcome.verdict outcome.progress) ∨
    (strategy = .bfs ∧
      (∀ more rounds, BreadthFirst.search space more rounds visited initial =
        BreadthFirst.run space more rounds (BreadthFirst.start space visited initial)) ∧
      ∃ rounds, BreadthFirst.run space limits rounds (BreadthFirst.start space visited initial) =
        some outcome) := by
  cases strategy with
  | dfs =>
    rw [answers_dfs_iff] at answers
    by_cases known : space.key initial ∈ visited
    · left
      rw [DepthFirst.search, if_pos known] at answers
      rw [← answers]
      refine ⟨fun more => answers_dfs_iff.2 ?_, rfl, by simp⟩
      rw [DepthFirst.search, if_pos known]
    · right; left
      rcases DepthFirst.exists_explores_search space limits visited initial with
        ⟨known', _⟩ | ⟨_, explored⟩
      · exact absurd known' known
      · rw [answers] at explored
        exact ⟨rfl, known, explored⟩
  | bfs =>
    obtain ⟨rounds, answered⟩ := answers
    simp only [run] at answered
    rcases BreadthFirst.search_cases space visited initial with
      ⟨answer, atOnce, unexpanded, unstopped⟩ | ⟨-, inRounds⟩
    · left
      rw [atOnce] at answered
      obtain rfl := Option.some.inj answered
      exact ⟨fun more => ⟨0, atOnce more 0⟩, unexpanded, unstopped⟩
    · right; right
      rw [inRounds] at answered
      exact ⟨rfl, inRounds, rounds, answered⟩

/-- Limits that leave room for what was done change nothing. Only a search that went too deep must
not be allowed to go deeper. -/
theorem Answers.relax
    (answers : (⟨strategy, limits⟩ : Solver).Answers space visited initial outcome)
    (deeper : strategy = .dfs → limits.maxDepth ≤ more.maxDepth)
    (within : more.Within outcome.progress.stats.expansions)
    (stopped : ∀ reason, outcome.verdict = .stopped reason →
      strategy = .dfs ∧ reason = .depth more.maxDepth ∧ more.maxDepth = limits.maxDepth) :
    (⟨strategy, more⟩ : Solver).Answers space visited initial outcome := by
  rcases answers.cases with ⟨atOnce, _⟩ | ⟨rfl, fresh, entered, explores⟩ | ⟨rfl, inRounds, rounds,
    decided⟩
  · exact atOnce more
  · have le : limits.maxDepth.toNat + 1 ≤ more.maxDepth.toNat + 1 :=
      Nat.succ_le_succ (UInt64.le_iff_toNat_le.1 (deeper rfl))
    refine answers_dfs_iff.2 ((explores.relax le within fun reason verdict => ?_).search_eq fresh)
    obtain ⟨_, same, equal⟩ := stopped reason verdict
    exact ⟨same, by rw [equal]⟩
  · refine ⟨rounds, (inRounds more rounds).trans (BreadthFirst.run_relax decided ?_ within)⟩
    intro reason verdict
    obtain ⟨impossible, _⟩ := stopped reason verdict
    cases impossible

/-- A search that answers without a budget is stopped by a budget that is too small. -/
theorem Answers.exists_stopped
    (answers : (⟨strategy, limits⟩ : Solver).Answers space visited initial outcome)
    (budget : tight.maxExpansions = some limit) (depth : tight.maxDepth = limits.maxDepth)
    (less : limit.toNat < outcome.progress.stats.expansions) :
    ∃ final, (⟨strategy, tight⟩ : Solver).Answers space visited initial final ∧
      final.verdict = .stopped (.expansions limit) := by
  rcases answers.cases with ⟨_, unexpanded, _⟩ | ⟨rfl, fresh, entered, explores⟩ | ⟨rfl, inRounds,
    rounds, decided⟩
  · omega
  · rw [← depth] at explores
    obtain ⟨entered', after', explores'⟩ := explores.exists_stopped budget (Nat.zero_le _) less
    exact ⟨_, answers_dfs_iff.2 (explores'.search_eq fresh), rfl⟩
  · obtain ⟨final, decided', verdict⟩ :=
      BreadthFirst.exists_stopped_run decided budget (Nat.zero_le _) less
    exact ⟨final, ⟨rounds, (inRounds tight rounds).trans decided'⟩, verdict⟩

/-- No answer overspends the budget. -/
theorem Answers.within
    (answers : (⟨strategy, limits⟩ : Solver).Answers space visited initial outcome) :
    limits.Within outcome.progress.stats.expansions := by
  rcases answers.cases with ⟨_, unexpanded, _⟩ | ⟨_, _, entered, explores⟩ | ⟨_, _, rounds, decided⟩
  · rw [unexpanded]
    exact limits.within_zero
  · exact explores.within limits.within_zero
  · exact BreadthFirst.within_of_run decided limits.within_zero

/-- Without a budget only a depth-first search is stopped, and only by its depth. -/
theorem Answers.stopped_of_unbounded
    (answers : (⟨strategy, limits⟩ : Solver).Answers space visited initial outcome)
    (unbounded : limits.maxExpansions = none) {reason : LimitExceeded}
    (stopped : outcome.verdict = .stopped reason) :
    strategy = .dfs ∧ reason = .depth limits.maxDepth := by
  rcases answers.cases with ⟨_, _, unstopped⟩ | ⟨depthFirst, _, entered, explores⟩ | ⟨_, _, rounds,
    decided⟩
  · exact absurd stopped (unstopped reason)
  · exact ⟨depthFirst, explores.stopped_of_unbounded unbounded stopped⟩
  · exact absurd stopped (BreadthFirst.not_stopped_of_run unbounded decided reason)

/-- An answer that is a report is given under all limits that leave it room. -/
theorem Answers.relax_of_report
    (answers : (⟨strategy, limits⟩ : Solver).Answers space visited initial outcome)
    (reported : outcome.report = .ok report)
    (deeper : strategy = .dfs → limits.maxDepth ≤ more.maxDepth)
    (within : more.Within outcome.progress.stats.expansions) :
    (⟨strategy, more⟩ : Solver).Answers space visited initial outcome :=
  answers.relax deeper within fun reason stopped =>
    absurd stopped (Outcome.not_stopped_of_report reported reason)

/-- Without a budget and as deep as need be, a report is given again. -/
theorem Answers.unlimited
    (answers : (⟨strategy, limits⟩ : Solver).Answers space visited initial outcome)
    (reported : outcome.report = .ok report) {depth : UInt64} (le : limits.maxDepth ≤ depth) :
    (⟨strategy, ⟨depth, none⟩⟩ : Solver).Answers space visited initial outcome :=
  answers.relax_of_report reported (fun _ => le) (fun _ budget => by cases budget)

/-- Limits decide whether an answer is given, and never which one. Two reports under different
limits are equal, and so are the visited sets left behind; limits that allow more allow the same
report; a budget is enough exactly if it pays for the expansions made without one; and the depth
limit does not matter to a breadth-first search. -/
theorem limits_only_stop (space : StateSpace S K) (visited : VisitedSet K) (initial : S)
    (strategy : Strategy) :
    (∀ limits limits' outcome outcome' report report',
      (⟨strategy, limits⟩ : Solver).Answers space visited initial outcome →
      outcome.report = .ok report →
      (⟨strategy, limits'⟩ : Solver).Answers space visited initial outcome' →
      outcome'.report = .ok report' →
        report = report' ∧ outcome.visited = outcome'.visited) ∧
    (∀ limits more outcome report, limits ≤ more →
      (⟨strategy, limits⟩ : Solver).Answers space visited initial outcome →
      outcome.report = .ok report →
        ∃ outcome' report', (⟨strategy, more⟩ : Solver).Answers space visited initial outcome' ∧
          outcome'.report = .ok report') ∧
    (∀ limits outcome, limits.maxExpansions = none →
      (⟨strategy, limits⟩ : Solver).Answers space visited initial outcome → ∀ budget : UInt64,
        (outcome.progress.stats.expansions ≤ budget.toNat →
          (⟨strategy, { limits with maxExpansions := some budget }⟩ : Solver).Answers space visited
            initial outcome) ∧
        (budget.toNat < outcome.progress.stats.expansions →
          ∃ outcome', (⟨strategy, { limits with maxExpansions := some budget }⟩ : Solver).Answers
            space visited initial outcome' ∧
            outcome'.report = .error (.expansions budget))) ∧
    (strategy = .bfs → ∀ (limits : Limits) (depth : UInt64) (rounds : Nat),
      (⟨strategy, { limits with maxDepth := depth }⟩ : Solver).run space rounds visited initial =
        (⟨strategy, limits⟩ : Solver).run space rounds visited initial) := by
  refine ⟨?_, ?_, ?_, ?_⟩
  · intro limits limits' outcome outcome' report report' answers reported answers' reported'
    obtain ⟨depth, le, le'⟩ : ∃ depth, limits.maxDepth ≤ depth ∧ limits'.maxDepth ≤ depth := by
      rcases UInt64.le_total limits.maxDepth limits'.maxDepth with le | le
      · exact ⟨_, le, UInt64.le_refl _⟩
      · exact ⟨_, UInt64.le_refl _, le⟩
    -- Both answers are also given without a budget and down to the greater of the two depths.
    obtain rfl := (answers.unlimited reported le).unique (answers'.unlimited reported' le')
    rw [reported] at reported'
    exact ⟨Except.ok.inj reported', rfl⟩
  · intro limits more outcome report le answers reported
    exact ⟨outcome, report, answers.relax_of_report reported (fun _ => (Limits.le_iff.1 le).1)
      (answers.within.mono le), reported⟩
  · intro limits outcome unbounded answers budget
    refine ⟨fun enough => ?_, fun less => ?_⟩
    · refine answers.relax (fun _ => UInt64.le_refl _) ((Limits.within_iff rfl).2 enough) ?_
      intro reason stopped
      obtain ⟨depthFirst, depth⟩ := answers.stopped_of_unbounded unbounded stopped
      exact ⟨depthFirst, depth, rfl⟩
    · have bounded : ({ limits with maxExpansions := some budget } : Limits).maxExpansions =
          some budget := rfl
      obtain ⟨final, answers', stopped⟩ := answers.exists_stopped bounded rfl less
      exact ⟨final, answers', by rw [Outcome.report, stopped]⟩
  · intro breadthFirst limits depth rounds
    have same : ({ limits with maxDepth := depth } : Limits).maxExpansions =
        limits.maxExpansions := rfl
    rw [breadthFirst]
    exact BreadthFirst.search_congr same rounds visited initial

theorem limits_only_stop_diamond : ∃ outcome report,
    (⟨.dfs, { maxDepth := 2 }⟩ : Solver).Answers Graph.diamond.space ∅ 0 outcome ∧
    outcome.report = .ok report ∧ report.path.states = [0, 1, 3] ∧
    (⟨.dfs, { maxDepth := 2, maxExpansions := some 2 }⟩ : Solver).Answers Graph.diamond.space ∅ 0
      outcome ∧
    (∃ outcome', (⟨.dfs, { maxDepth := 2, maxExpansions := some 1 }⟩ : Solver).Answers
      Graph.diamond.space ∅ 0 outcome' ∧ outcome'.report = .error (.expansions 1)) ∧
    (∃ outcome', (⟨.dfs, {}⟩ : Solver).Answers Graph.diamond.space ∅ 0 outcome' ∧
      outcome'.report = .ok report ∧ outcome.visited = outcome'.visited) ∧
    (⟨.bfs, { maxDepth := 0 }⟩ : Solver).run Graph.diamond.space 9 ∅ 0 =
      (⟨.bfs, {}⟩ : Solver).run Graph.diamond.space 9 ∅ 0 := by
  obtain ⟨found, expansions⟩ :
      (DepthFirst.search Graph.diamond.space { maxDepth := 2 } ∅ 0).verdict = .found [0, 1, 3] ∧
      (DepthFirst.search Graph.diamond.space { maxDepth := 2 } ∅ 0).progress.stats.expansions =
        2 := by
    simp [DepthFirst.search, Graph.diamond, Graph.space, Graph.successors, Graph.key,
      DepthFirst.explore, DepthFirst.firstRoute, VisitedSet.not_mem_empty, VisitedSet.mem_insert,
      Limits.spent]
  have reported := Outcome.report_of_found found
  have answers := answers_dfs_iff.2
    (Eq.refl (DepthFirst.search Graph.diamond.space { maxDepth := 2 } ∅ 0))
  obtain ⟨unique, allowed, priced, -⟩ := limits_only_stop Graph.diamond.space ∅ 0 .dfs
  obtain ⟨-, -, -, depthless⟩ := limits_only_stop Graph.diamond.space ∅ 0 .bfs
  obtain ⟨outcome', report', answers', reported'⟩ :=
    allowed _ {} _ _ (Limits.le_iff.2 ⟨by decide, by simp⟩) answers reported
  obtain ⟨rfl, same⟩ := unique _ _ _ _ _ _ answers reported answers' reported'
  exact ⟨_, _, answers, reported, rfl, (priced _ _ rfl answers 2).1 (by rw [expansions]; decide),
    (priced _ _ rfl answers 1).2 (by rw [expansions]; decide),
    ⟨outcome', answers', reported', same⟩, depthless rfl {} 0 9⟩

end Solver

end SearchSpace
