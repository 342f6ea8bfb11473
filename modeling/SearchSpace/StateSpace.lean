/-!
# State spaces

A state space says which states follow a state, which states are goals, which states can be given up
early, and when two states count as the same. It is a value and not a class, so that one type of
states can carry several spaces: the same puzzle with and without pruning, for instance.
-/

namespace SearchSpace

universe u v

/-- A space of states of type `S`, told apart by keys of type `K`. -/
structure StateSpace (S : Type u) (K : Type v) where
  /-- The states one transition away, in the order in which a search tries them. -/
  successors : S → List S
  /-- Whether the state is a goal. -/
  isGoal : S → Bool
  /-- Whether the state is known to lead to no goal. The default gives no state up. -/
  isDeadEnd : S → Bool := fun _ => false
  /-- The key of the state: a search treats states of equal keys as one state. -/
  key : S → K

end SearchSpace
