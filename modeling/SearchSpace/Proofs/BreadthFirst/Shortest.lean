import SearchSpace.Proofs.BreadthFirst.History
import SearchSpace.Proofs.Graph

/-!
# Breadth-first search finds the first shortest solution

In a lawful space every route is matched by an arrival that is no later, or leads past one that
still waits. So the first goal to leave the queue is reached by a shortest solution, and by the
first of those in the lexicographic order of their positions; and an empty queue leaves no solution.
-/

namespace SearchSpace.BreadthFirst

universe u v

variable {S : Type u} {K : Type v} [BEq K] [Hashable K]

/-- The search comes to `left` no later than to `right`. -/
def NoLater (left right : List Nat) : Prop := left = right ∨ Sooner left right

namespace NoLater

theorem trans {first second third : List Nat} (left : NoLater first second)
    (right : NoLater second third) : NoLater first third := by
  rcases left with rfl | left
  · exact right
  · rcases right with rfl | right
    · exact .inr left
    · exact .inr (left.trans right)

theorem append {left right : List Nat} (noLater : NoLater left right) (more : List Nat) :
    NoLater (left ++ more) (right ++ more) := by
  rcases noLater with rfl | sooner
  · exact .inl rfl
  · exact .inr (sooner.append rfl)

theorem append_right (positions more : List Nat) : NoLater positions (positions ++ more) := by
  cases more with
  | nil => exact .inl (List.append_nil _).symm
  | cons position more => exact .inr (.of_length_lt (by simp))

/-- Shorter, or as long and not greater in the lexicographic order. -/
theorem length_lt_or_le {left right : List Nat} (noLater : NoLater left right) :
    left.length < right.length ∨ left.length = right.length ∧ left ≤ right := by
  rcases noLater with rfl | sooner
  · exact .inr ⟨rfl, le_refl _⟩
  · rcases List.shortlex_def.1 sooner with shorter | ⟨same, less⟩
    · exact .inl shorter
    · exact .inr ⟨same, le_of_lt less⟩

end NoLater

namespace Explains

variable {space : StateSpace S K} {region : Set S} {blocked : Set K} {start : S}
  {history : History S} {frontier : Frontier S K}

/-- From a state that has the key of an arrival, a route either ends at the key of an arrival that
is no later, or goes past an arrival that still waits. -/
theorem exists_noLater (explains : Explains space blocked start history frontier)
    (lawful : space.LawfulOn region) (inside : start ∈ region) {origin last : S}
    {positions : List Nat} {states : List S} (route : space.Route blocked origin positions states)
    (atEnd : states.getLast? = some last) (within : origin ∈ region) {arrival : Arrival S}
    (member : arrival ∈ history.arrivals) (same : space.key origin = space.key arrival.state) :
    (∃ other ∈ history.arrivals, space.key last = space.key other.state ∧
      NoLater other.positions (arrival.positions ++ positions)) ∨
    ∃ other ∈ history.waiting, NoLater other.positions (arrival.positions ++ positions) := by
  have walk := route.walk
  induction walk generalizing arrival with
  | stay state =>
    obtain rfl : state = last := by simpa using atEnd
    exact .inl ⟨arrival, member, same, .inl (List.append_nil _).symm⟩
  | @move state next position positions states taken rest ih =>
    rcases List.mem_append.1 member with expanded | waiting
    · -- The successor at this position of the arrival's own state has the key of `next`.
      obtain ⟨other, taken', same'⟩ := lawful.exists_successor within
        (explains.state_mem_region lawful.closed inside member) same taken
      have onward := route.tail rest
      have withinNext := lawful.closed within (List.mem_of_getElem? taken)
      have withinOther := lawful.closed (explains.state_mem_region lawful.closed inside member)
        (List.mem_of_getElem? taken')
      have atEnd' : states.getLast? = some last := by rwa [rest.getLast?_cons] at atEnd
      have metAt : ∃ found ∈ history.arrivals, space.key found.state = space.key other ∧
          NoLater found.positions (arrival.positions ++ [position]) := by
        rcases explains.met arrival expanded position other taken' with known | known | known
        · exact absurd known (same' ▸ onward.start_fresh)
        · obtain ⟨state, inDead, key⟩ := List.mem_map.1 known
          obtain ⟨deadEnd, parent, inExpanded, successor⟩ := explains.rejected state inDead
          have withinState := lawful.closed (explains.state_mem_region lawful.closed inside
            (List.mem_append_left _ inExpanded)) successor
          rw [lawful.isDeadEnd_eq withinState withinNext (key.trans same'.symm),
            onward.start_alive] at deadEnd
          cases deadEnd
        · exact known
      obtain ⟨found, old, key, noLater⟩ := metAt
      have further := noLater.append positions
      rw [List.append_assoc, List.singleton_append] at further
      rcases ih onward atEnd' withinNext old (same'.trans key.symm) with
        ⟨last', old', key', noLater'⟩ | ⟨last', old', noLater'⟩
      · exact .inl ⟨last', old', key', noLater'.trans further⟩
      · exact .inr ⟨last', old', noLater'.trans further⟩
    · exact .inr ⟨arrival, waiting, .append_right _ _⟩

/-- Every solution is matched by an arrival that still waits and is no later. -/
theorem exists_waiting (explains : Explains space blocked start history frontier)
    (lawful : space.LawfulOn region) (inside : start ∈ region) {positions : List Nat}
    {states : List S} (solution : space.Solution blocked start positions states) :
    ∃ arrival ∈ history.waiting, NoLater arrival.positions positions := by
  obtain ⟨last, atEnd, goal⟩ := solution.goal
  rcases explains.exists_noLater lawful inside solution.toRoute atEnd inside explains.root_mem rfl
    with ⟨arrival, member, same, noLater⟩ | ⟨arrival, waiting, noLater⟩
  · rcases List.mem_append.1 member with expanded | waiting
    · have within := solution.walk.mem_region lawful.closed inside last (List.mem_of_getLast? atEnd)
      rw [lawful.isGoal_eq within (explains.state_mem_region lawful.closed inside member) same,
        explains.noGoal arrival expanded] at goal
      cases goal
    · exact ⟨arrival, waiting, noLater⟩
  · exact ⟨arrival, waiting, noLater⟩

/-- The first arrival in the queue is no later than any solution. -/
theorem first_noLater (explains : Explains space blocked start history frontier)
    (lawful : space.LawfulOn region) (inside : start ∈ region) {first : Arrival S}
    {rest : List (Arrival S)} (queue : history.waiting = first :: rest) {positions : List Nat}
    {states : List S} (solution : space.Solution blocked start positions states) :
    NoLater first.positions positions := by
  obtain ⟨arrival, waiting, noLater⟩ := explains.exists_waiting lawful inside solution
  have sorted := (List.pairwise_append.1 explains.sorted).2.1
  rw [queue] at waiting sorted
  rcases List.mem_cons.1 waiting with rfl | waiting
  · exact noLater
  · exact .trans (.inr ((List.pairwise_cons.1 sorted).1 arrival waiting)) noLater

end Explains

variable {space : StateSpace S K} {region : Set S} {limits : Limits}
  {visited : VisitedSet K} {initial : S} {outcome : Outcome S K}

/-- A search that exhausts the space leaves no solution. -/
theorem not_solvable_of_exhausted (lawful : space.LawfulOn region) (inside : initial ∈ region)
    (decided : Decided space limits visited initial outcome)
    (exhausted : outcome.verdict = .exhausted) : ¬space.Solvable visited.toSet initial := by
  rintro ⟨positions, states, solution⟩
  cases decided with
  | visited known => exact solution.start_fresh known
  | deadEnd _ deadEnd =>
    rw [solution.start_alive] at deadEnd
    cases deadEnd
  | goal => cases exhausted
  | rounds _ _ explains _ round =>
    cases round with
    | drained empty =>
      obtain ⟨arrival, waiting, -⟩ := explains.exists_waiting lawful inside solution
      rw [explains.queue_eq, List.map_eq_nil_iff] at empty
      rw [empty] at waiting
      cases waiting
    | reached => cases exhausted
    | refused => cases exhausted

/-- A search that finds a path finds a solution, and comes to no other solution sooner. -/
theorem exists_solution_of_found (lawful : space.LawfulOn region) (inside : initial ∈ region)
    (decided : Decided space limits visited initial outcome) {states : List S}
    (found : outcome.verdict = .found states) :
    ∃ positions, space.Solution visited.toSet initial positions states ∧
      ∀ others states', space.Solution visited.toSet initial others states' →
        NoLater positions others := by
  cases decided with
  | visited => cases found
  | deadEnd => cases found
  | goal fresh alive goal =>
    cases found
    exact ⟨[], .stay alive fresh goal, fun others _ _ => .append_right [] others⟩
  | rounds _ _ explains _ round =>
    cases round with
    | drained => cases found
    | reached front goal =>
      cases found
      obtain ⟨first, rest, waiting, rfl, -⟩ := explains.exists_first front
      have member := History.mem_arrivals_of_waiting waiting
      refine ⟨first.positions, ⟨(explains.genuine first member).route,
        first.state, first.getLast?_toList, goal⟩, fun others states' solution => ?_⟩
      exact explains.first_noLater lawful inside waiting solution
    | refused => cases found

/-- In a lawful space a breadth-first search that is not stopped answers with no path exactly if
there is no solution, and otherwise with a solution of the fewest transitions, and of those with the
one whose positions are lexicographically least. -/
theorem search_shortest_first [LawfulBEq K] (lawful : space.Lawful) {rounds : Nat}
    {report : Report S} (answered : search space limits rounds visited initial = some outcome)
    (reported : outcome.report = .ok report) :
    (report.path.isEmpty = true ↔ ¬space.Solvable visited.toSet initial) ∧
    (report.path.isEmpty = false → ∃ positions,
      space.Solution visited.toSet initial positions report.path.states ∧
      ∀ others states, space.Solution visited.toSet initial others states →
        positions.length < others.length ∨
          positions.length = others.length ∧ positions ≤ others) := by
  have decided := decided_search answered
  rcases Outcome.verdict_of_report reported with found | ⟨exhausted, empty⟩
  · obtain ⟨positions, solution, first⟩ :=
      exists_solution_of_found lawful.lawfulOn_univ (Set.mem_univ _) decided found
    have nonempty : report.path.isEmpty = false :=
      List.isEmpty_eq_false_iff.2 solution.walk.states_ne_nil
    refine ⟨?_, fun _ => ⟨positions, solution, fun others states other => ?_⟩⟩
    · rw [nonempty]
      exact iff_of_false Bool.false_ne_true (not_not.2 ⟨positions, _, solution⟩)
    · exact (first others states other).length_lt_or_le
  · have unsolvable :=
      not_solvable_of_exhausted lawful.lawfulOn_univ (Set.mem_univ _) decided exhausted
    rw [empty]
    exact ⟨iff_of_true rfl unsolvable, fun nonempty => by cases nonempty⟩

theorem search_shortest_first_diamond : Graph.diamond.space.Lawful ∧ ∃ outcome report,
    search Graph.diamond.space {} Graph.diamond.rounds ∅ 0 = some outcome ∧
    outcome.report = .ok report ∧ report.path.states = [0, 1, 3] ∧ ∃ positions,
      Graph.diamond.space.Solution (∅ : VisitedSet Nat).toSet 0 positions [0, 1, 3] ∧
      ∀ others states, Graph.diamond.space.Solution (∅ : VisitedSet Nat).toSet 0 others states →
        positions.length < others.length ∨
          positions.length = others.length ∧ positions ≤ others := by
  obtain ⟨outcome, answered, found⟩ : ∃ outcome,
      search Graph.diamond.space {} Graph.diamond.rounds ∅ 0 = some outcome ∧
      outcome.verdict = .found [0, 1, 3] := by
    simp [search, Graph.diamond, Graph.space, Graph.rounds, Graph.successors, Graph.key, run, step,
      BreadthFirst.start, newTrails, VisitedSet.not_mem_empty, VisitedSet.mem_insert,
      Queue.ofList, Queue.pop?, Queue.append, Limits.spent, Trail.extend, Trail.toList]
  have reported := Outcome.report_of_found found
  have lawful : Graph.diamond.space.Lawful := Graph.lawful_space rfl
  have first := search_shortest_first lawful answered reported
  exact ⟨lawful, outcome, _, answered, reported, rfl, first.2 rfl⟩

end SearchSpace.BreadthFirst
