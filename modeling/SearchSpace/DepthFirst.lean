import SearchSpace.Outcome

/-!
# Depth-first search

The search tries the successors of a state in order and goes down into each before it looks at the
next. One visited set is shared by the whole search, so a state met in one branch is not entered
again from another. The answer is the first solution in that order, which need not be a shortest
one. The recursion is on the number of transitions that may still be made.
-/

namespace SearchSpace.DepthFirst

universe u v

variable {S : Type u} {K : Type v} [BEq K] [Hashable K]

/-- Looks into the states of a list one after another until `visit` reaches a goal or is stopped.
A state that was visited meanwhile is passed over, and one that led nowhere is marked. -/
def firstRoute (space : StateSpace S K) (visit : S → Progress K → Outcome S K) :
    List S → Progress K → Outcome S K
  | [], progress => ⟨.exhausted, progress⟩
  | next :: rest, progress =>
    if space.key next ∈ progress.visited then firstRoute space visit rest progress
    else
      match visit next progress with
      | ⟨.exhausted, progress⟩ =>
        firstRoute space visit rest (progress.mark (space.key next))
      | outcome => outcome

/-- Searches below a state from which `remaining - 1` more transitions may be made; with none
remaining the state itself lies too deep. The state is marked before it is counted as expanded. -/
def explore (space : StateSpace S K) (limits : Limits) : Nat → S → Progress K → Outcome S K
  | 0, _, progress => ⟨.stopped (.depth limits.maxDepth), progress⟩
  | remaining + 1, state, progress =>
    if space.isDeadEnd state then ⟨.exhausted, progress.countPruned⟩
    else if space.isGoal state then ⟨.found [state], progress⟩
    else
      let progress := progress.mark (space.key state)
      match limits.spent progress.stats.expansions with
      | some limit => ⟨.stopped (.expansions limit), progress⟩
      | none =>
        match firstRoute space (explore space limits remaining) (space.successors state)
            progress.countExpanded with
        | ⟨.found states, progress⟩ => ⟨.found (state :: states), progress⟩
        | outcome => outcome

/-- Searches from `initial`, away from the states whose keys are in `visited`. -/
def search (space : StateSpace S K) (limits : Limits) (visited : VisitedSet K) (initial : S) :
    Outcome S K :=
  if space.key initial ∈ visited then ⟨.exhausted, { visited }⟩
  else explore space limits (limits.maxDepth.toNat + 1) initial { visited }

end SearchSpace.DepthFirst
