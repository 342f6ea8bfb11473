import Mathlib.Data.List.Perm.Subperm
import SearchSpace.Proofs.BreadthFirst.History
import SearchSpace.Proofs.DepthFirst.Exploration
import SearchSpace.Proofs.Path
import SearchSpace.Solver

/-!
# Paths that a search returns are solutions

Nothing is asked of the space here: keys may be shared by states that differ, and a dead end may
have a goal behind it. Whatever path a search returns, it starts where the search started, follows
successors to a goal, stops at the first goal, meets no dead end, no key twice and no key that was
off limits. Every state on it but the last was expanded, which bounds its length by the counters.
-/

namespace SearchSpace

universe u v

variable {S : Type u} {K : Type v} [BEq K] [Hashable K] {space : StateSpace S K} {limits : Limits}
  {visited : VisitedSet K} {initial : S}

/-- What a path is that a search returns with these counters. -/
structure Sound (space : StateSpace S K) (limits : Limits) (visited : VisitedSet K) (initial : S)
    (states : List S) (stats : Stats) : Prop where
  solution : ∃ positions, space.SimpleSolution visited.toSet initial positions states
  noGoal : ∀ state ∈ states.dropLast, space.isGoal state = false
  transitions_le : states.length - 1 ≤ stats.expansions
  within : limits.Within stats.expansions

variable [LawfulBEq K] {states : List S}

/-- What a depth-first search returns is sound and goes no deeper than allowed. -/
theorem DepthFirst.sound_of_found
    (found : (search space limits visited initial).verdict = .found states) :
    Sound space limits visited initial states (search space limits visited initial).progress.stats ∧
      states.length - 1 ≤ limits.maxDepth.toNat := by
  rcases exists_explores_search space limits visited initial with
    ⟨-, answer⟩ | ⟨fresh, entered, explores⟩
  · rw [answer] at found
    cases found
  · have within := explores.within limits.within_zero
    obtain ⟨⟨start, member, positions, solution⟩, noGoal, length_le, expansions_le⟩ :=
      explores.found fresh found
    obtain rfl := List.mem_singleton.1 member
    refine ⟨⟨⟨positions, solution⟩, noGoal, ?_, within⟩, by omega⟩
    simp only [Nat.zero_add] at expansions_le
    omega

namespace BreadthFirst

variable {start : S} {blocked : Set K} {history : History S} {frontier : Frontier S K}
  {arrival : Arrival S}

omit [LawfulBEq K] in
/-- The states passed on a trail have distinct keys, and all of them were expanded. -/
theorem Explains.length_earlier_le (explains : Explains space blocked start history frontier)
    (member : arrival ∈ history.arrivals) :
    arrival.trail.earlier.length ≤ history.expanded.length := by
  have genuine := explains.genuine arrival member
  have distinct : (arrival.trail.earlier.map space.key).Nodup := by
    have distinct := genuine.distinct
    rw [Trail.toList, List.reverse_cons, List.map_append, List.map_reverse] at distinct
    exact List.nodup_reverse.1 (List.nodup_append.1 distinct).1
  have passed : arrival.trail.earlier.map space.key ⊆ history.expanded.map (space.key ·.state) := by
    intro key inside
    obtain ⟨state, earlier, rfl⟩ := List.mem_map.1 inside
    obtain ⟨old, expanded, rfl⟩ := genuine.earlier state earlier
    exact List.mem_map.2 ⟨old, expanded, rfl⟩
  have le := (distinct.subperm passed).length_le
  rwa [List.length_map, List.length_map] at le

omit [LawfulBEq K] in
/-- What a breadth-first search returns is sound. -/
theorem sound_of_found {outcome : Outcome S K}
    (decided : Decided space limits visited initial outcome)
    (found : outcome.verdict = .found states) :
    Sound space limits visited initial states outcome.progress.stats := by
  cases decided with
  | visited => cases found
  | deadEnd => cases found
  | goal fresh alive goal =>
    cases found
    refine ⟨⟨[], .stay alive fresh goal⟩, ?_, Nat.zero_le _, limits.within_zero⟩
    simp
  | rounds _ _ explains within round =>
    cases round with
    | drained => cases found
    | refused => cases found
    | reached front goal =>
      cases found
      obtain ⟨first, rest, waiting, rfl, -⟩ := explains.exists_first front
      have member := History.mem_arrivals_of_waiting waiting
      have genuine := explains.genuine first member
      refine ⟨⟨first.positions, ⟨genuine.route, first.state, first.getLast?_toList, goal⟩,
        genuine.distinct⟩, ?_, ?_, within⟩
      · intro state passed
        rw [Trail.toList, List.reverse_cons, List.dropLast_concat, List.mem_reverse] at passed
        obtain ⟨old, expanded, rfl⟩ := genuine.earlier state passed
        exact explains.noGoal old expanded
      · have le := explains.length_earlier_le member
        rw [explains.stats_eq, Trail.toList, List.length_reverse, List.length_cons]
        exact le

end BreadthFirst

namespace Solver

variable {solver : Solver} {rounds : Nat} {outcome : Outcome S K}

/-- What a solver returns is sound, and no deeper than allowed if the search was depth first. -/
theorem sound_of_found (answered : solver.run space rounds visited initial = some outcome)
    (found : outcome.verdict = .found states) :
    Sound space solver.limits visited initial states outcome.progress.stats ∧
      (solver.strategy = .dfs → states.length - 1 ≤ solver.limits.maxDepth.toNat) := by
  obtain ⟨strategy, limits⟩ := solver
  cases strategy with
  | dfs =>
    cases answered
    exact (DepthFirst.sound_of_found found).imp_right fun le _ => le
  | bfs =>
    refine ⟨BreadthFirst.sound_of_found (BreadthFirst.decided_search answered) found, ?_⟩
    intro other
    cases other

/-- A path that a solver returns leads from the start along successors to its only goal, past no
dead end, no key twice and no key that was visited before. It is paid for by expansions within the
budget, is no longer than a depth-first search may go down, and passes the check. -/
theorem run_sound (answered : solver.run space rounds visited initial = some outcome)
    {report : Report S} (reported : outcome.report = .ok report)
    (nonempty : report.path.isEmpty = false) :
    report.path.first? = some initial ∧
    report.path.states.IsChain (fun state next => next ∈ space.successors state) ∧
    (∃ last, report.path.last? = some last ∧ space.isGoal last = true) ∧
    (∀ state ∈ report.path.states.dropLast, space.isGoal state = false) ∧
    (∀ state ∈ report.path.states, space.isDeadEnd state = false) ∧
    (report.path.keys space).Nodup ∧
    (∀ key ∈ report.path.keys space, key ∉ visited) ∧
    report.path.transitions ≤ report.stats.expansions ∧
    (∀ limit, solver.limits.maxExpansions = some limit →
      report.stats.expansions ≤ limit.toNat) ∧
    (solver.strategy = .dfs → report.path.transitions ≤ solver.limits.maxDepth.toNat) ∧
    report.path.verify space initial = true := by
  rcases Outcome.verdict_of_report reported with found | ⟨-, empty⟩
  · obtain ⟨⟨⟨positions, solution⟩, noGoal, transitions_le, within⟩, depth_le⟩ :=
      sound_of_found answered found
    have first : report.path.first? = some initial := solution.walk.head?_states
    obtain ⟨last, final, goal⟩ := solution.goal
    rw [← Outcome.stats_of_report reported] at transitions_le within
    refine ⟨first, solution.walk.isChain, ⟨last, final, goal⟩, noGoal, solution.alive,
      solution.distinct, ?_, transitions_le, within, depth_le,
      Path.verify_of_isChain first final goal solution.walk.isChain⟩
    exact List.forall_mem_map.2 solution.fresh
  · rw [empty] at nonempty
    cases nonempty

theorem run_sound_diamond : ∃ outcome report,
    (⟨.bfs, { maxExpansions := some 3 }⟩ : Solver).run Graph.diamond.space Graph.diamond.rounds
      ∅ 0 = some outcome ∧
    outcome.report = .ok report ∧ report.path.states = [0, 1, 3] ∧
    report.path.transitions ≤ report.stats.expansions ∧ report.stats.expansions ≤ 3 ∧
    report.path.verify Graph.diamond.space 0 = true := by
  obtain ⟨outcome, answered, found⟩ : ∃ outcome,
      (⟨.bfs, { maxExpansions := some 3 }⟩ : Solver).run Graph.diamond.space Graph.diamond.rounds
        ∅ 0 = some outcome ∧ outcome.verdict = .found [0, 1, 3] := by
    simp [run, BreadthFirst.search, Graph.diamond, Graph.space, Graph.rounds, Graph.successors,
      Graph.key, BreadthFirst.run, BreadthFirst.step, BreadthFirst.start, BreadthFirst.newTrails,
      VisitedSet.not_mem_empty, VisitedSet.mem_insert, Queue.ofList, Queue.pop?, Queue.append,
      Limits.spent, Option.filter_some, Trail.extend, Trail.toList]
  have reported := Outcome.report_of_found found
  obtain ⟨-, -, -, -, -, -, -, transitions_le, budget, -, verified⟩ :=
    run_sound answered reported rfl
  exact ⟨outcome, _, answered, reported, rfl, transitions_le, budget 3 rfl, verified⟩

end Solver

end SearchSpace
