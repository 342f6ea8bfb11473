import SearchSpace.StateSpace

/-!
# Paths

A path lists the states from the start of a search to a goal. The empty path stands for "no
solution". `Path.verify` checks a path against a state space, whoever produced it.
-/

namespace SearchSpace

universe u v

/-- The states from the start of a search to a goal. -/
structure Path (S : Type u) where
  /-- The states in the order in which they are passed. -/
  states : List S
deriving DecidableEq, Repr

namespace Path

variable {S : Type u} {K : Type v}

/-- The path that stands for "no solution". -/
def empty : Path S := ⟨[]⟩

instance : EmptyCollection (Path S) := ⟨empty⟩

instance : Inhabited (Path S) := ⟨empty⟩

/-- Whether there is no state. -/
def isEmpty (path : Path S) : Bool := path.states.isEmpty

/-- The number of states, the start included. -/
def length (path : Path S) : Nat := path.states.length

/-- The number of steps between states. -/
def transitions (path : Path S) : Nat := path.states.length - 1

/-- The start, if there is one. -/
def first? (path : Path S) : Option S := path.states.head?

/-- The goal, if there is one. -/
def last? (path : Path S) : Option S := path.states.getLast?

/-- The keys of the states. -/
def keys (space : StateSpace S K) (path : Path S) : List K :=
  path.states.map space.key

/-- Whether every state is followed by one that has the key of one of its successors. -/
def linked [BEq K] (space : StateSpace S K) : List S → Bool
  | state :: next :: rest =>
    (space.successors state).any (fun successor => space.key successor == space.key next)
      && linked space (next :: rest)
  | _ => true

/-- Whether the path is empty, or starts at a state with the key of `initial`, follows successors
and ends at a goal. -/
def verify [BEq K] (space : StateSpace S K) (path : Path S) (initial : S) : Bool :=
  match path.first?, path.last? with
  | some first, some last =>
    space.key first == space.key initial && space.isGoal last
      && linked space path.states
  | _, _ => true

end Path

end SearchSpace
