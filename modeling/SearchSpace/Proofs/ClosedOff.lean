import SearchSpace.Proofs.Walk

/-!
# Regions that may be closed off

A set of keys may be closed off if its states lead to no goal and to no key outside it, but for
those behind dead ends and blocked keys. Solutions keep away from such a set, so blocking it loses
none.
-/

namespace SearchSpace.StateSpace

universe u v

variable {S : Type u} {K : Type v} {space : StateSpace S K} {blocked more : Set K} {start : S}
  {positions : List Nat} {states : List S}

/-- From a state with a key of the set, unless it is blocked or a dead end, no step leads to a goal
or out of the set. -/
structure ClosedOff (space : StateSpace S K) (blocked more : Set K) : Prop where
  noGoal : ∀ {state : S}, space.key state ∈ more → space.key state ∉ blocked →
    space.isDeadEnd state = false → space.isGoal state = false
  successors : ∀ {state next : S}, space.key state ∈ more → space.key state ∉ blocked →
    space.isDeadEnd state = false → next ∈ space.successors state → space.key next ∈ more

namespace ClosedOff

theorem self (blocked : Set K) : space.ClosedOff blocked blocked where
  noGoal inside outside := absurd inside outside
  successors inside outside := absurd inside outside

/-- No solution starts in the set. -/
theorem start_notMem (closedOff : space.ClosedOff blocked more)
    (solution : space.Solution blocked start positions states) : space.key start ∉ more := by
  intro inside
  have walk := solution.walk
  induction walk with
  | stay start =>
    have noGoal := closedOff.noGoal inside solution.start_fresh solution.start_alive
    rw [solution.isGoal_of_stay] at noGoal
    cases noGoal
  | move taken rest ih =>
    exact ih (solution.tail rest) (closedOff.successors inside solution.start_fresh
      solution.start_alive (List.mem_of_getElem? taken))

theorem not_solvable (closedOff : space.ClosedOff blocked more) (inside : space.key start ∈ more) :
    ¬space.Solvable blocked start := by
  rintro ⟨positions, states, solution⟩
  exact closedOff.start_notMem solution inside

/-- A solution keeps away from the whole set. -/
theorem solution (closedOff : space.ClosedOff blocked more)
    (solution : space.Solution blocked start positions states) :
    space.Solution more start positions states := by
  have walk := solution.walk
  induction walk with
  | stay start =>
    exact .stay solution.start_alive (closedOff.start_notMem solution) solution.isGoal_of_stay
  | move taken rest ih =>
    exact .move solution.start_alive (closedOff.start_notMem solution) taken
      (ih (solution.tail rest))

theorem solution_iff (closedOff : space.ClosedOff blocked more) (subset : blocked ⊆ more) :
    space.Solution more start positions states ↔
      space.Solution blocked start positions states :=
  ⟨fun solution => solution.mono subset, closedOff.solution⟩

/-- Blocking one more key changes nothing if it is closed off as well. -/
theorem insert (closedOff : space.ClosedOff blocked more) (key : K) :
    space.ClosedOff (Insert.insert key blocked) (Insert.insert key more) where
  noGoal inside fresh alive := by
    rw [Set.mem_insert_iff, not_or] at fresh
    exact closedOff.noGoal (inside.resolve_left fresh.1) fresh.2 alive
  successors inside fresh alive successor := by
    rw [Set.mem_insert_iff, not_or] at fresh
    exact .inr (closedOff.successors (inside.resolve_left fresh.1) fresh.2 alive successor)

/-- In a lawful space the set grows by the keys of states that are no goals and whose successors
have keys in the set that results. -/
theorem extend (closedOff : space.ClosedOff blocked more) (lawful : space.Lawful) {met : List S}
    {known : Set K} (known_iff : ∀ key, key ∈ known ↔ key ∈ more ∨ key ∈ met.map space.key)
    (noGoal : ∀ state ∈ met, space.isDeadEnd state = false → space.isGoal state = false)
    (closed : ∀ state ∈ met, space.isDeadEnd state = false →
      ∀ next ∈ space.successors state, space.key next ∈ known) :
    space.ClosedOff blocked known := by
  constructor
  · intro state inside fresh alive
    rcases (known_iff _).1 inside with old | new
    · exact closedOff.noGoal old fresh alive
    · obtain ⟨twin, member, same⟩ := List.mem_map.1 new
      rw [← lawful.isGoal_eq same]
      exact noGoal twin member ((lawful.isDeadEnd_eq same).trans alive)
  · intro state next inside fresh alive successor
    rcases (known_iff _).1 inside with old | new
    · exact (known_iff _).2 (.inl (closedOff.successors old fresh alive successor))
    · obtain ⟨twin, member, same⟩ := List.mem_map.1 new
      have key := List.mem_map_of_mem (f := space.key) successor
      rw [← lawful.successors_eq same] at key
      obtain ⟨next', successor', same'⟩ := List.mem_map.1 key
      rw [← same']
      exact closed twin member ((lawful.isDeadEnd_eq same).trans alive) next' successor'

end ClosedOff

end SearchSpace.StateSpace
