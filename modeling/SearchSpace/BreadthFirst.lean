import SearchSpace.Outcome
import SearchSpace.Queue

/-!
# Breadth-first search

The frontier is a queue of trails, each a way from the start to a state that is still to be looked
at. A state is marked when its trail is queued, so no state is queued twice, and the first goal to
leave the queue is one with the fewest transitions. A state space may be infinite: the search is
given a number of rounds, each of which takes one trail off the queue, and answers `none` if it has
not decided by then.
-/

namespace SearchSpace

universe u v

/-- A way from the start of a search to a state, which is a field of its own. So no trail is empty,
and a step needs no case for a trail without a last state: such a trail would be dropped, since it
can neither end at a goal nor be made longer. -/
structure Trail (S : Type u) where
  /-- The state that the way leads to. -/
  state : S
  /-- The states passed before, latest first, so that trails share what they have in common. -/
  earlier : List S

namespace Trail

variable {S : Type u}

/-- The states in the order in which they are passed. -/
def toList (trail : Trail S) : List S := (trail.state :: trail.earlier).reverse

/-- The trail with one more state at its end. -/
def extend (trail : Trail S) (next : S) : Trail S := ⟨next, trail.state :: trail.earlier⟩

theorem toList_extend (trail : Trail S) (next : S) :
    (trail.extend next).toList = trail.toList ++ [next] := by
  simp [extend, toList]

end Trail

namespace BreadthFirst

variable {S : Type u} {K : Type v} [BEq K] [Hashable K]

/-- The trails waiting to be looked at, and the progress so far. -/
structure Frontier (S : Type u) (K : Type v) [BEq K] [Hashable K] where
  queue : Queue (Trail S)
  progress : Progress K

/-- The trails to the successors that are worth queueing: those not visited before. Each of them is
marked, and dropped if it is a dead end. -/
def newTrails (space : StateSpace S K) (trail : Trail S) :
    List S → Progress K → List (Trail S) × Progress K
  | [], progress => ([], progress)
  | next :: rest, progress =>
    if space.key next ∈ progress.visited then newTrails space trail rest progress
    else if space.isDeadEnd next then
      newTrails space trail rest (progress.mark (space.key next)).countPruned
    else
      let (queued, progress) := newTrails space trail rest (progress.mark (space.key next))
      (trail.extend next :: queued, progress)

/-- One round: takes the first trail off the queue, which decides the search or queues the
trails one step longer behind the others. -/
def step (space : StateSpace S K) (limits : Limits) (frontier : Frontier S K) :
    Outcome S K ⊕ Frontier S K :=
  match frontier with
  | ⟨queue, progress⟩ =>
    match queue.pop? with
    | none => .inl ⟨.exhausted, progress⟩
    | some (trail, queue) =>
      if space.isGoal trail.state then .inl ⟨.found trail.toList, progress⟩
      else
        match limits.spent progress.stats.expansions with
        | some limit => .inl ⟨.stopped (.expansions limit), progress⟩
        | none =>
          let (queued, progress) :=
            newTrails space trail (space.successors trail.state) progress.countExpanded
          .inr ⟨queue.append queued, progress⟩

/-- At most the given number of rounds, `none` if they do not decide the search. -/
def run (space : StateSpace S K) (limits : Limits) : Nat → Frontier S K → Option (Outcome S K)
  | 0, _ => none
  | rounds + 1, frontier =>
    match step space limits frontier with
    | .inl outcome => some outcome
    | .inr frontier => run space limits rounds frontier

/-- The frontier of a search that starts at a state which is neither visited nor a dead end
nor a goal: the state is marked, and the trail that consists of it waits. -/
def start (space : StateSpace S K) (visited : VisitedSet K) (initial : S) : Frontier S K :=
  ⟨.ofList [⟨initial, []⟩], ({ visited } : Progress K).mark (space.key initial)⟩

/-- Searches from `initial` for the given number of rounds, away from the states whose keys are in
`visited`. -/
def search (space : StateSpace S K) (limits : Limits) (rounds : Nat) (visited : VisitedSet K)
    (initial : S) : Option (Outcome S K) :=
  if space.key initial ∈ visited then some ⟨.exhausted, { visited }⟩
  else if space.isDeadEnd initial then some ⟨.exhausted, ({ visited } : Progress K).countPruned⟩
  else if space.isGoal initial then some ⟨.found [initial], { visited }⟩
  else run space limits rounds (start space visited initial)

end BreadthFirst

end SearchSpace
