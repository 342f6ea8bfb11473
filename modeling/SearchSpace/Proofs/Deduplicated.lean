import SearchSpace.Proofs.BreadthFirst.History
import SearchSpace.Proofs.DepthFirst.Exploration
import SearchSpace.Proofs.Graph
import SearchSpace.Solver

/-!
# Repeated successors

A list of successors should not hold the state itself, nor one state twice. If it does, nothing
comes of it: a search passes over them. When the successors of a state are looked through its own
key is marked, and so is the key of each successor by the time that a later one is looked at,
whether it was visited before, was given up, or led nowhere. So every search goes the same way
without them.
-/

namespace SearchSpace

universe u v

variable {S : Type u} {K : Type v} [BEq K]

namespace StateSpace

/-- The states of a list but for those that have one of the given keys, or the key of an earlier
state of the list. -/
def firstOfKeys (space : StateSpace S K) : List K → List S → List S
  | _, [] => []
  | known, next :: rest =>
    if known.contains (space.key next) then space.firstOfKeys known rest
    else next :: space.firstOfKeys (space.key next :: known) rest

/-- The same space without the successors that have the key of the state itself, and without those
that have the key of an earlier successor. -/
def deduplicated (space : StateSpace S K) : StateSpace S K where
  successors state := space.firstOfKeys [space.key state] (space.successors state)
  isGoal := space.isGoal
  isDeadEnd := space.isDeadEnd
  key := space.key

variable {space : StateSpace S K}

@[simp] theorem successors_deduplicated (state : S) : space.deduplicated.successors state =
    space.firstOfKeys [space.key state] (space.successors state) := rfl

@[simp] theorem isGoal_deduplicated : space.deduplicated.isGoal = space.isGoal := rfl

@[simp] theorem isDeadEnd_deduplicated : space.deduplicated.isDeadEnd = space.isDeadEnd := rfl

@[simp] theorem key_deduplicated : space.deduplicated.key = space.key := rfl

end StateSpace

variable [Hashable K] [LawfulBEq K] {space : StateSpace S K} {limits : Limits}
  {known : List K}

namespace DepthFirst

/-- States of known keys may be left out of the list, and so may states of earlier keys, because
whatever a visit comes to, either its key is marked after it or no state after it is looked at. -/
theorem firstRoute_firstOfKeys {visit : S → Progress K → Outcome S K}
    (grows : ∀ state before, before.visited.toSet ⊆ (visit state before).visited.toSet)
    {states : List S} {progress : Progress K} (marked : ∀ key ∈ known, key ∈ progress.visited) :
    firstRoute space.deduplicated visit (space.firstOfKeys known states) progress =
      firstRoute space visit states progress := by
  induction states generalizing known progress with
  | nil => rfl
  | cons next rest ih =>
    rw [StateSpace.firstOfKeys, firstRoute]
    by_cases again : known.contains (space.key next) = true
    · have seen := marked _ (List.contains_iff_mem.1 again)
      rw [if_pos again, if_pos seen]
      exact ih marked
    rw [if_neg again, firstRoute, StateSpace.key_deduplicated]
    by_cases seen : space.key next ∈ progress.visited
    · rw [if_pos seen, if_pos seen]
      exact ih (List.forall_mem_cons.2 ⟨seen, marked⟩)
    rw [if_neg seen, if_neg seen]
    have kept := grows next progress
    cases visited : visit next progress with
    | mk verdict after =>
      rw [visited] at kept
      cases verdict with
      | found states => rfl
      | stopped reason => rfl
      | exhausted =>
        refine ih (List.forall_mem_cons.2 ⟨VisitedSet.mem_insert.2 (.inl rfl), ?_⟩)
        intro key old
        exact VisitedSet.mem_insert.2 (.inr (kept (marked key old)))

theorem visited_subset_explore (remaining : Nat) (state : S) (before : Progress K) :
    before.visited.toSet ⊆ (explore space limits remaining state before).visited.toSet := by
  obtain ⟨entered, explores⟩ : ∃ entered, Explores space limits remaining (.state state) entered
      before (explore space limits remaining state before).verdict
      (explore space limits remaining state before).progress :=
    exists_explores_explore remaining state before
  exact explores.visited_subset

theorem explore_deduplicated (remaining : Nat) :
    explore space.deduplicated limits remaining = explore space limits remaining := by
  induction remaining with
  | zero => rfl
  | succ remaining ih =>
    funext state progress
    have marked : ∀ key ∈ [space.key state],
        key ∈ (progress.mark (space.key state)).countExpanded.visited := by
      simp [VisitedSet.mem_insert]
    have route : firstRoute space.deduplicated (explore space limits remaining)
          (space.deduplicated.successors state)
          (progress.mark (space.key state)).countExpanded =
        firstRoute space (explore space limits remaining) (space.successors state)
          (progress.mark (space.key state)).countExpanded :=
      firstRoute_firstOfKeys (visited_subset_explore remaining) marked
    simp only [explore, ih, StateSpace.isDeadEnd_deduplicated, StateSpace.isGoal_deduplicated,
      StateSpace.key_deduplicated, route]

theorem search_deduplicated (visited : VisitedSet K) (initial : S) :
    search space.deduplicated limits visited initial = search space limits visited initial := by
  simp only [search, explore_deduplicated, StateSpace.key_deduplicated]

end DepthFirst

namespace BreadthFirst

variable {blocked : Set K} {start : S} {history : History S} {frontier : Frontier S K}

/-- States of known keys may be left out of the successors, and so may states of earlier keys,
because each key is marked when it is first met. -/
theorem newTrails_firstOfKeys {trail : Trail S} {successors : List S} {progress : Progress K}
    (marked : ∀ key ∈ known, key ∈ progress.visited) :
    newTrails space.deduplicated trail (space.firstOfKeys known successors) progress =
      newTrails space trail successors progress := by
  induction successors generalizing known progress with
  | nil => rfl
  | cons next rest ih =>
    rw [StateSpace.firstOfKeys, newTrails]
    by_cases again : known.contains (space.key next) = true
    · have seen := marked _ (List.contains_iff_mem.1 again)
      rw [if_pos again, if_pos seen]
      exact ih marked
    rw [if_neg again, newTrails, StateSpace.key_deduplicated, StateSpace.isDeadEnd_deduplicated]
    by_cases seen : space.key next ∈ progress.visited
    · rw [if_pos seen, if_pos seen]
      exact ih (List.forall_mem_cons.2 ⟨seen, marked⟩)
    have marked' : ∀ key ∈ space.key next :: known,
        key ∈ (progress.mark (space.key next)).visited := by
      refine List.forall_mem_cons.2 ⟨VisitedSet.mem_insert.2 (.inl rfl), fun key old => ?_⟩
      exact VisitedSet.mem_insert.2 (.inr (marked key old))
    rw [if_neg seen, if_neg seen]
    by_cases deadEnd : space.isDeadEnd next = true
    · rw [if_pos deadEnd, if_pos deadEnd]
      exact ih marked'
    · rw [if_neg deadEnd, if_neg deadEnd, ih marked']

omit [LawfulBEq K] in
/-- The states that wait are marked. -/
theorem Explains.mem_visited (explains : Explains space blocked start history frontier)
    {trail : Trail S} (waits : trail ∈ frontier.queue.toList) :
    space.key trail.state ∈ frontier.progress.visited := by
  rw [explains.queue_eq] at waits
  obtain ⟨arrival, waiting, rfl⟩ := List.mem_map.1 waits
  refine (explains.visited_iff _).2 (.inr (List.mem_append_left _ ?_))
  exact List.mem_map.2 ⟨arrival, List.mem_append_right _ waiting, rfl⟩

theorem step_deduplicated (explains : Explains space blocked start history frontier) :
    step space.deduplicated limits frontier = step space limits frontier := by
  obtain ⟨queue, progress⟩ := frontier
  cases popped : queue.pop? with
  | none => simp only [step, popped]
  | some front =>
    obtain ⟨trail, rest⟩ := front
    have waits : trail ∈ queue.toList := by simp [Queue.toList_of_pop? popped]
    have marked : ∀ key ∈ [space.key trail.state], key ∈ progress.countExpanded.visited := by
      simpa using explains.mem_visited waits
    simp only [step, popped, StateSpace.isGoal_deduplicated, StateSpace.successors_deduplicated,
      newTrails_firstOfKeys marked]

theorem run_deduplicated (explains : Explains space blocked start history frontier)
    (rounds : Nat) :
    run space.deduplicated limits rounds frontier = run space limits rounds frontier := by
  -- The rounds agree only where the waiting states are marked, as they are in every frontier that
  -- the unchanged space explains.
  induction rounds generalizing history frontier with
  | zero => rfl
  | succ rounds ih =>
    have round := round_step space limits frontier
    rw [run, run, step_deduplicated explains]
    cases stepped : step space limits frontier with
    | inl outcome => rfl
    | inr next =>
      rw [stepped] at round
      obtain ⟨later, explains', -⟩ := explains.round round
      exact ih explains'

theorem search_deduplicated (rounds : Nat) (visited : VisitedSet K) (initial : S) :
    search space.deduplicated limits rounds visited initial =
      search space limits rounds visited initial := by
  rw [search, search, StateSpace.key_deduplicated, StateSpace.isDeadEnd_deduplicated,
    StateSpace.isGoal_deduplicated]
  by_cases known : space.key initial ∈ visited
  · rw [if_pos known, if_pos known]
  rw [if_neg known, if_neg known]
  by_cases deadEnd : space.isDeadEnd initial = true
  · rw [if_pos deadEnd, if_pos deadEnd]
  rw [if_neg deadEnd, if_neg deadEnd]
  by_cases goal : space.isGoal initial = true
  · rw [if_pos goal, if_pos goal]
  rw [if_neg goal, if_neg goal]
  exact run_deduplicated (.initial known (Bool.eq_false_of_not_eq_true deadEnd)) rounds

end BreadthFirst

namespace Solver

/-- Whatever the successors of states repeat does not show. Without the successors that have the key
of the state itself or of an earlier successor, a solver comes to the same: it decides in the same
number of rounds, with the same verdict and the same counts, and leaves the same visited set. -/
theorem search_repeats_absorbed (solver : Solver) (space : StateSpace S K) (rounds : Nat)
    (visited : VisitedSet K) (initial : S) :
    solver.run space.deduplicated rounds visited initial =
      solver.run space rounds visited initial := by
  obtain ⟨strategy, limits⟩ := solver
  cases strategy with
  | dfs => exact congrArg some (DepthFirst.search_deduplicated visited initial)
  | bfs => exact BreadthFirst.search_deduplicated rounds visited initial

theorem search_repeats_absorbed_stutter : Graph.stutter.space.successors 0 = [0, 1, 2, 1] ∧
    Graph.stutter.space.deduplicated.successors 0 = [1] ∧ ∃ outcome,
      (⟨.bfs, {}⟩ : Solver).run Graph.stutter.space Graph.stutter.rounds ∅ 0 = some outcome ∧
      outcome.verdict = .found [0, 1, 4, 3] ∧
      (⟨.bfs, {}⟩ : Solver).run Graph.stutter.space.deduplicated Graph.stutter.rounds ∅ 0 =
        some outcome := by
  refine ⟨by decide, by decide, ?_⟩
  rw [search_repeats_absorbed]
  obtain ⟨outcome, answered, found⟩ : ∃ outcome,
      (⟨.bfs, {}⟩ : Solver).run Graph.stutter.space Graph.stutter.rounds ∅ 0 = some outcome ∧
        outcome.verdict = .found [0, 1, 4, 3] := by
    simp [run, BreadthFirst.search, Graph.stutter, Graph.space, Graph.rounds, Graph.successors,
      Graph.key, List.lookup_cons, BreadthFirst.run, BreadthFirst.step, BreadthFirst.start,
      BreadthFirst.newTrails, VisitedSet.not_mem_empty, VisitedSet.mem_insert, Queue.ofList,
      Queue.pop?, Queue.append, Limits.spent, Trail.extend, Trail.toList]
  exact ⟨outcome, answered, found, answered⟩

end Solver

end SearchSpace
