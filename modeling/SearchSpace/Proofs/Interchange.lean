import SearchSpace.Proofs.Graph
import SearchSpace.Solver

/-!
# Searches from states of equal keys

In a lawful space a search cannot tell states of equal keys apart. Searches from two such states go
alike step by step: the states in their hands differ, but their keys do not, and neither does what
is marked and counted. So both end in the same way, or neither ends.
-/

namespace SearchSpace

universe u v

variable {S : Type u} {K : Type v}

/-- Where the elements look the same, so do the first of two queues and those behind them. -/
theorem Queue.pop?_cases_of_map_eq {α : Type u} {β : Type v} {look : α → β} {left right : Queue α}
    (same : left.toList.map look = right.toList.map look) :
    left.pop? = none ∧ right.pop? = none ∨
      ∃ first rest first' rest', left.pop? = some (first, rest) ∧
        right.pop? = some (first', rest') ∧ look first = look first' ∧
        rest.toList.map look = rest'.toList.map look := by
  cases popped : left.pop? with
  | none =>
    rw [Queue.pop?_eq_none popped] at same
    cases popped' : right.pop? with
    | none => exact .inl ⟨rfl, rfl⟩
    | some front =>
      rw [Queue.toList_of_pop? popped'] at same
      cases same
  | some front =>
    rw [Queue.toList_of_pop? popped] at same
    cases popped' : right.pop? with
    | none =>
      rw [Queue.pop?_eq_none popped'] at same
      cases same
    | some front' =>
      rw [Queue.toList_of_pop? popped'] at same
      obtain ⟨first, rest⟩ := List.cons.inj same
      exact .inr ⟨_, _, _, _, rfl, rfl, first, rest⟩

variable [BEq K] [Hashable K] {space : StateSpace S K} {limits : Limits}

/-- Outcomes that differ at most in the states on the path, and not in their keys. -/
inductive Outcome.Alike (space : StateSpace S K) : Outcome S K → Outcome S K → Prop
  | found {states others : List S} {progress : Progress K} :
      states.map space.key = others.map space.key →
      Alike space ⟨.found states, progress⟩ ⟨.found others, progress⟩
  | exhausted {progress : Progress K} : Alike space ⟨.exhausted, progress⟩ ⟨.exhausted, progress⟩
  | stopped {reason : LimitExceeded} {progress : Progress K} :
      Alike space ⟨.stopped reason, progress⟩ ⟨.stopped reason, progress⟩

namespace DepthFirst

/-- If visits to states of equal keys end alike, so does going through lists of equal keys. -/
theorem firstRoute_alike {visit : S → Progress K → Outcome S K}
    (visits : ∀ {a b : S}, space.key a = space.key b → ∀ progress,
      Outcome.Alike space (visit a progress) (visit b progress))
    {left right : List S} (same : left.map space.key = right.map space.key)
    (progress : Progress K) :
    Outcome.Alike space (firstRoute space visit left progress)
      (firstRoute space visit right progress) := by
  induction left generalizing right progress with
  | nil =>
    obtain rfl : right = [] := List.map_eq_nil_iff.1 same.symm
    exact .exhausted
  | cons next rest ih =>
    cases right with
    | nil => cases same
    | cons other others =>
      obtain ⟨sameKey, sameRest⟩ := List.cons.inj same
      rw [firstRoute, firstRoute, ← sameKey]
      by_cases seen : space.key next ∈ progress.visited
      · rw [if_pos seen, if_pos seen]
        exact ih sameRest progress
      · rw [if_neg seen, if_neg seen]
        have alike := visits sameKey progress
        generalize visit next progress = outcome at alike ⊢
        generalize visit other progress = outcome' at alike ⊢
        cases alike with
        | found keys => exact .found keys
        | exhausted => exact ih sameRest _
        | stopped => exact .stopped

theorem explore_alike (lawful : space.Lawful) (remaining : Nat) {a b : S}
    (same : space.key a = space.key b) (progress : Progress K) :
    Outcome.Alike space (explore space limits remaining a progress)
      (explore space limits remaining b progress) := by
  induction remaining generalizing a b progress with
  | zero => exact .stopped
  | succ remaining ih =>
    rw [explore, explore, ← lawful.isDeadEnd_eq same, ← lawful.isGoal_eq same, ← same]
    by_cases deadEnd : space.isDeadEnd a = true
    · rw [if_pos deadEnd, if_pos deadEnd]
      exact .exhausted
    rw [if_neg deadEnd, if_neg deadEnd]
    by_cases goal : space.isGoal a = true
    · rw [if_pos goal, if_pos goal]
      exact .found (by rw [List.map_singleton, List.map_singleton, same])
    rw [if_neg goal, if_neg goal]
    dsimp only
    cases limits.spent (progress.mark (space.key a)).stats.expansions with
    | some limit => exact .stopped
    | none =>
      have alike := firstRoute_alike ih (lawful.successors_eq same)
        (progress.mark (space.key a)).countExpanded
      dsimp only
      generalize firstRoute space _ (space.successors a) _ = outcome at alike ⊢
      generalize firstRoute space _ (space.successors b) _ = outcome' at alike ⊢
      cases alike with
      | found keys => exact .found (by rw [List.map_cons, List.map_cons, same, keys])
      | exhausted => exact .exhausted
      | stopped => exact .stopped

theorem search_alike (lawful : space.Lawful) {a b : S} (same : space.key a = space.key b)
    (visited : VisitedSet K) :
    Outcome.Alike space (search space limits visited a) (search space limits visited b) := by
  rw [search, search, ← same]
  by_cases known : space.key a ∈ visited
  · rw [if_pos known, if_pos known]
    exact .exhausted
  · rw [if_neg known, if_neg known]
    exact explore_alike lawful _ same _

end DepthFirst

namespace Trail

/-- The keys that a trail passes. -/
def keys (space : StateSpace S K) (trail : Trail S) : Trail K :=
  ⟨space.key trail.state, trail.earlier.map space.key⟩

variable {trail other : Trail S}

omit [BEq K] [Hashable K] in
theorem keys_extend (trail : Trail S) (next : S) :
    (trail.extend next).keys space = (trail.keys space).extend (space.key next) := rfl

omit [BEq K] [Hashable K] in
theorem toList_keys (trail : Trail S) : (trail.keys space).toList = trail.toList.map space.key := by
  simp [toList, keys]

omit [BEq K] [Hashable K] in
theorem key_state_eq (same : trail.keys space = other.keys space) :
    space.key trail.state = space.key other.state :=
  congrArg Trail.state same

end Trail

namespace BreadthFirst

/-- Going through successors of equal keys queues trails past equal keys. -/
theorem newTrails_alike (lawful : space.Lawful) {trail other : Trail S} {left right : List S}
    (trails : trail.keys space = other.keys space)
    (same : left.map space.key = right.map space.key) (progress : Progress K) :
    (newTrails space trail left progress).1.map (Trail.keys space) =
        (newTrails space other right progress).1.map (Trail.keys space) ∧
      (newTrails space trail left progress).2 = (newTrails space other right progress).2 := by
  induction left generalizing right progress with
  | nil =>
    obtain rfl : right = [] := List.map_eq_nil_iff.1 same.symm
    exact ⟨rfl, rfl⟩
  | cons next rest ih =>
    cases right with
    | nil => cases same
    | cons next' rest' =>
      obtain ⟨sameKey, sameRest⟩ := List.cons.inj same
      rw [newTrails, newTrails, ← sameKey, ← lawful.isDeadEnd_eq sameKey]
      by_cases seen : space.key next ∈ progress.visited
      · rw [if_pos seen, if_pos seen]
        exact ih sameRest progress
      rw [if_neg seen, if_neg seen]
      by_cases deadEnd : space.isDeadEnd next = true
      · rw [if_pos deadEnd, if_pos deadEnd]
        exact ih sameRest _
      rw [if_neg deadEnd, if_neg deadEnd]
      obtain ⟨queued, after⟩ := ih sameRest (progress.mark (space.key next))
      refine ⟨?_, after⟩
      rw [List.map_cons, List.map_cons, queued, Trail.keys_extend, Trail.keys_extend, trails,
        sameKey]

/-- Frontiers that differ at most in the states that wait, and not in their keys. -/
structure Frontier.Alike (space : StateSpace S K) (left right : Frontier S K) : Prop where
  waiting : left.queue.toList.map (Trail.keys space) = right.queue.toList.map (Trail.keys space)
  progress_eq : left.progress = right.progress

theorem step_alike (lawful : space.Lawful) {left right : Frontier S K}
    (alike : left.Alike space right) :
    Sum.LiftRel (Outcome.Alike space) (Frontier.Alike space) (step space limits left)
      (step space limits right) := by
  obtain ⟨queue, progress⟩ := left
  obtain ⟨queue', progress'⟩ := right
  obtain ⟨waiting, rfl⟩ := alike
  unfold step
  dsimp only at waiting ⊢
  rcases Queue.pop?_cases_of_map_eq waiting with ⟨empty, empty'⟩ |
    ⟨trail, rest, trail', rest', popped, popped', first, others⟩
  · rw [empty, empty']
    exact .inl .exhausted
  have sameKey := Trail.key_state_eq first
  rw [popped, popped']
  dsimp only
  rw [← lawful.isGoal_eq sameKey]
  by_cases goal : space.isGoal trail.state = true
  · rw [if_pos goal, if_pos goal]
    refine .inl (.found ?_)
    rw [← Trail.toList_keys, ← Trail.toList_keys, first]
  rw [if_neg goal, if_neg goal]
  cases limits.spent progress.stats.expansions with
  | some limit => exact .inl .stopped
  | none =>
    obtain ⟨queued, after⟩ := newTrails_alike lawful first (lawful.successors_eq sameKey)
      progress.countExpanded
    refine .inr ⟨?_, after⟩
    rw [Queue.toList_append, Queue.toList_append, List.map_append, List.map_append, others, queued]

/-- Alike frontiers take the same number of rounds, to alike outcomes. -/
theorem run_alike (lawful : space.Lawful) (rounds : Nat) {left right : Frontier S K}
    (alike : left.Alike space right) :
    Option.Rel (Outcome.Alike space) (run space limits rounds left)
      (run space limits rounds right) := by
  induction rounds generalizing left right with
  | zero => exact .none
  | succ rounds ih =>
    have stepped : Sum.LiftRel (Outcome.Alike space) (Frontier.Alike space)
        (step space limits left) (step space limits right) := step_alike lawful alike
    rw [run, run]
    generalize step space limits left = result at stepped ⊢
    generalize step space limits right = result' at stepped ⊢
    cases stepped with
    | inl outcomes => exact .some outcomes
    | inr frontiers => exact ih frontiers

theorem search_alike (lawful : space.Lawful) (rounds : Nat) {a b : S}
    (same : space.key a = space.key b) (visited : VisitedSet K) :
    Option.Rel (Outcome.Alike space) (search space limits rounds visited a)
      (search space limits rounds visited b) := by
  rw [search, search, ← lawful.isDeadEnd_eq same, ← lawful.isGoal_eq same, ← same]
  by_cases known : space.key a ∈ visited
  · rw [if_pos known, if_pos known]
    exact .some .exhausted
  rw [if_neg known, if_neg known]
  by_cases deadEnd : space.isDeadEnd a = true
  · rw [if_pos deadEnd, if_pos deadEnd]
    exact .some .exhausted
  rw [if_neg deadEnd, if_neg deadEnd]
  by_cases goal : space.isGoal a = true
  · rw [if_pos goal, if_pos goal]
    exact .some (.found (by rw [List.map_singleton, List.map_singleton, same]))
  rw [if_neg goal, if_neg goal]
  refine run_alike lawful rounds ⟨?_, by rw [start, start, same]⟩
  simp only [start, Queue.toList_ofList, List.map_singleton, Trail.keys, same, List.map_nil]

end BreadthFirst

namespace Solver

theorem run_alike (lawful : space.Lawful) (solver : Solver) (rounds : Nat) (visited : VisitedSet K)
    {a b : S} (same : space.key a = space.key b) :
    Option.Rel (Outcome.Alike space) (solver.run space rounds visited a)
      (solver.run space rounds visited b) := by
  obtain ⟨strategy, limits⟩ := solver
  cases strategy with
  | dfs => exact .some (DepthFirst.search_alike lawful same visited)
  | bfs => exact BreadthFirst.search_alike lawful rounds same visited

/-- In a lawful space searches from states of equal keys come to the same. However many rounds they
are given, neither decides or both do. They leave the same visited set behind, and both are stopped
for the same reason, or both report the same counts and paths past the same keys. -/
theorem run_interchangeable (lawful : space.Lawful) (solver : Solver) (rounds : Nat)
    (visited : VisitedSet K) {a b : S} (same : space.key a = space.key b) :
    solver.run space rounds visited a = none ∧ solver.run space rounds visited b = none ∨
    ∃ outcome outcome', solver.run space rounds visited a = some outcome ∧
      solver.run space rounds visited b = some outcome' ∧
      outcome.visited = outcome'.visited ∧
      ((∃ reason, outcome.report = .error reason ∧ outcome'.report = .error reason) ∨
        ∃ report report', outcome.report = .ok report ∧ outcome'.report = .ok report' ∧
          report.path.keys space = report'.path.keys space ∧ report.stats = report'.stats) := by
  have alike := solver.run_alike lawful rounds visited same
  generalize solver.run space rounds visited a = answer at alike ⊢
  generalize solver.run space rounds visited b = answer' at alike ⊢
  cases alike with
  | none => exact .inl ⟨rfl, rfl⟩
  | some outcomes =>
    refine .inr ⟨_, _, rfl, rfl, ?_⟩
    cases outcomes with
    | found keys => exact ⟨rfl, .inr ⟨_, _, rfl, rfl, keys, rfl⟩⟩
    | exhausted => exact ⟨rfl, .inr ⟨_, _, rfl, rfl, rfl, rfl⟩⟩
    | stopped => exact ⟨rfl, .inl ⟨_, rfl, rfl⟩⟩

theorem run_interchangeable_doubles : Graph.doubles.space.Lawful ∧
    Graph.doubles.space.key 1 = Graph.doubles.space.key 2 ∧ ∃ outcome outcome' report report',
      (⟨.bfs, {}⟩ : Solver).run Graph.doubles.space Graph.doubles.rounds ∅ 1 = some outcome ∧
      (⟨.bfs, {}⟩ : Solver).run Graph.doubles.space Graph.doubles.rounds ∅ 2 = some outcome' ∧
      outcome.visited = outcome'.visited ∧
      outcome.report = .ok report ∧ outcome'.report = .ok report' ∧
      report.path.states = [1, 3, 5] ∧ report'.path.states = [2, 4, 5] ∧
      report.path.keys Graph.doubles.space = report'.path.keys Graph.doubles.space ∧
      report.stats = report'.stats := by
  have lawful : Graph.doubles.space.Lawful := Graph.lawful_space_of_keys (by decide)
  have same : Graph.doubles.space.key 1 = Graph.doubles.space.key 2 := by decide
  obtain ⟨⟨outcome, answered, found⟩, outcome', answered', found'⟩ :
      (∃ outcome,
        (⟨.bfs, {}⟩ : Solver).run Graph.doubles.space Graph.doubles.rounds ∅ 1 = some outcome ∧
          outcome.verdict = .found [1, 3, 5]) ∧
      ∃ outcome,
        (⟨.bfs, {}⟩ : Solver).run Graph.doubles.space Graph.doubles.rounds ∅ 2 = some outcome ∧
          outcome.verdict = .found [2, 4, 5] := by
    simp [run, BreadthFirst.search, Graph.doubles, Graph.space, Graph.rounds, Graph.successors,
      Graph.key, List.lookup_cons, BreadthFirst.run, BreadthFirst.step, BreadthFirst.start,
      BreadthFirst.newTrails, VisitedSet.not_mem_empty, VisitedSet.mem_insert, Queue.ofList,
      Queue.pop?, Queue.append, Limits.spent, Trail.extend, Trail.toList]
  have reported := Outcome.report_of_found found
  have reported' := Outcome.report_of_found found'
  rcases run_interchangeable lawful ⟨.bfs, {}⟩ Graph.doubles.rounds ∅ same with
    ⟨undecided, -⟩ | ⟨_, _, decided, decided', visited, ending⟩
  · rw [answered] at undecided
    cases undecided
  · obtain rfl := Option.some.inj (answered.symm.trans decided)
    obtain rfl := Option.some.inj (answered'.symm.trans decided')
    refine ⟨lawful, same, outcome, outcome', _, _, answered, answered', visited, reported,
      reported', rfl, rfl, ?_⟩
    rcases ending with ⟨reason, stopped, -⟩ | ⟨report, report', first, second, keys, stats⟩
    · rw [reported] at stopped
      cases stopped
    · obtain rfl := Except.ok.inj (reported.symm.trans first)
      obtain rfl := Except.ok.inj (reported'.symm.trans second)
      exact ⟨keys, stats⟩

end Solver

end SearchSpace
