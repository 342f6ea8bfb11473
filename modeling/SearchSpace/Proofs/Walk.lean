import Mathlib.Data.List.Chain
import Mathlib.Data.List.Lex
import Mathlib.Data.List.Nodup
import Mathlib.Data.Set.Insert
import SearchSpace.StateSpace
import SearchSpace.VisitedSet

/-!
# Walks and solutions

A walk goes from a state to one of its successors again and again. It is told by the positions of
the successors that are taken, so walks can be compared by length and in lexicographic order. A
solution is a walk to a goal that meets no dead end and no blocked key. In a lawful space states of
equal keys have the same walks, up to keys.
-/

namespace SearchSpace

universe u v

/-- The keys of a visited set. -/
def VisitedSet.toSet {K : Type v} [BEq K] [Hashable K] (visited : VisitedSet K) : Set K :=
  {key | key ∈ visited}

@[simp] theorem VisitedSet.mem_toSet {K : Type v} [BEq K] [Hashable K] {visited : VisitedSet K}
    {key : K} : key ∈ visited.toSet ↔ key ∈ visited := Iff.rfl

@[simp] theorem VisitedSet.toSet_insert {K : Type v} [BEq K] [Hashable K] [LawfulBEq K]
    {visited : VisitedSet K} {key : K} :
    (visited.insert key).2.toSet = Insert.insert key visited.toSet := by
  ext other
  exact VisitedSet.mem_insert

namespace StateSpace

variable {S : Type u} {K : Type v}

/-- A walk from a state: the positions of the successors taken, and the states passed. -/
inductive Walk (space : StateSpace S K) : S → List Nat → List S → Prop
  | stay (state : S) : Walk space state [] [state]
  | move {state next : S} {position : Nat} {positions : List Nat} {states : List S} :
      (space.successors state)[position]? = some next → Walk space next positions states →
      Walk space state (position :: positions) (state :: states)

/-- A walk from `start` that meets no dead end and no blocked key. -/
structure Route (space : StateSpace S K) (blocked : Set K) (start : S)
    (positions : List Nat) (states : List S) : Prop where
  walk : space.Walk start positions states
  alive : ∀ state ∈ states, space.isDeadEnd state = false
  fresh : ∀ state ∈ states, space.key state ∉ blocked

/-- A route to a goal. -/
structure Solution (space : StateSpace S K) (blocked : Set K) (start : S)
    (positions : List Nat) (states : List S) : Prop
    extends space.Route blocked start positions states where
  goal : ∃ state, states.getLast? = some state ∧ space.isGoal state = true

/-- A solution that meets no key twice. -/
structure SimpleSolution (space : StateSpace S K) (blocked : Set K) (start : S)
    (positions : List Nat) (states : List S) : Prop
    extends space.Solution blocked start positions states where
  distinct : (states.map space.key).Nodup

/-- Some walk from the state is a solution. -/
def Solvable (space : StateSpace S K) (blocked : Set K) (start : S) : Prop :=
  ∃ positions states, space.Solution blocked start positions states

/-- States of equal keys cannot be told apart: not as goals, not as dead ends, and not by the keys
of their successors. -/
structure Lawful (space : StateSpace S K) : Prop where
  isGoal_eq : ∀ {a b : S}, space.key a = space.key b → space.isGoal a = space.isGoal b
  isDeadEnd_eq : ∀ {a b : S}, space.key a = space.key b → space.isDeadEnd a = space.isDeadEnd b
  successors_eq : ∀ {a b : S}, space.key a = space.key b →
    (space.successors a).map space.key = (space.successors b).map space.key

/-- A region that no successor leaves and in which states of equal keys cannot be told apart. -/
structure LawfulOn (space : StateSpace S K) (region : Set S) : Prop where
  closed : ∀ {state next : S}, state ∈ region → next ∈ space.successors state → next ∈ region
  isGoal_eq : ∀ {a b : S}, a ∈ region → b ∈ region → space.key a = space.key b →
    space.isGoal a = space.isGoal b
  isDeadEnd_eq : ∀ {a b : S}, a ∈ region → b ∈ region → space.key a = space.key b →
    space.isDeadEnd a = space.isDeadEnd b
  successors_eq : ∀ {a b : S}, a ∈ region → b ∈ region → space.key a = space.key b →
    (space.successors a).map space.key = (space.successors b).map space.key

/-- Positions are compared by the first in which they differ. -/
theorem positions_le_iff {left right : Nat} {lefts rights : List Nat} :
    left :: lefts ≤ right :: rights ↔ left < right ∨ left = right ∧ lefts ≤ rights := by
  rw [← not_lt, ← not_lt, List.cons_lt_cons_iff]
  rcases Nat.lt_trichotomy left right with less | rfl | greater
  · simp [less, less.ne', Nat.lt_asymm less]
  · simp
  · simp [greater, greater.ne', Nat.lt_asymm greater]

variable {space : StateSpace S K} {region : Set S} {blocked : Set K} {start : S}
  {positions : List Nat} {states : List S}

theorem Lawful.lawfulOn_univ (lawful : space.Lawful) : space.LawfulOn Set.univ where
  closed _ _ := Set.mem_univ _
  isGoal_eq _ _ := lawful.isGoal_eq
  isDeadEnd_eq _ _ := lawful.isDeadEnd_eq
  successors_eq _ _ := lawful.successors_eq

/-- Where no two states have the same key there is nothing to tell apart. -/
theorem LawfulOn.of_injOn
    (closed : ∀ {state next : S}, state ∈ region → next ∈ space.successors state → next ∈ region)
    (injective : ∀ {a b : S}, a ∈ region → b ∈ region → space.key a = space.key b → a = b) :
    space.LawfulOn region where
  closed := closed
  isGoal_eq left right same := by rw [injective left right same]
  isDeadEnd_eq left right same := by rw [injective left right same]
  successors_eq left right same := by rw [injective left right same]

namespace Walk

theorem length_states (walk : space.Walk start positions states) :
    states.length = positions.length + 1 := by
  induction walk with
  | stay => rfl
  | move _ _ ih => simp [ih]

theorem states_ne_nil (walk : space.Walk start positions states) : states ≠ [] := by
  cases walk <;> simp

theorem head?_states (walk : space.Walk start positions states) :
    states.head? = some start := by
  cases walk <;> rfl

theorem isChain (walk : space.Walk start positions states) :
    states.IsChain fun state next => next ∈ space.successors state := by
  induction walk with
  | stay => exact .singleton _
  | move taken rest ih =>
    refine List.isChain_cons.2 ⟨fun next first => ?_, ih⟩
    rw [rest.head?_states] at first
    cases first
    exact List.mem_of_getElem? taken

/-- The positions determine the states. -/
theorem unique (walk : space.Walk start positions states) {others : List S}
    (other : space.Walk start positions others) : states = others := by
  induction walk generalizing others with
  | stay => cases other; rfl
  | move taken _ ih =>
    cases other with
    | move taken' rest' =>
      rw [taken] at taken'
      cases taken'
      rw [ih rest']

/-- The end of a walk does not depend on what comes before it. -/
theorem getLast?_cons (walk : space.Walk start positions states) (earlier : S) :
    (earlier :: states).getLast? = states.getLast? := by
  cases walk with
  | stay => rfl
  | move => rw [List.getLast?_cons_cons]

/-- One more step at the end. -/
theorem concat (walk : space.Walk start positions states) {last next : S} {position : Nat}
    (atEnd : states.getLast? = some last)
    (taken : (space.successors last)[position]? = some next) :
    space.Walk start (positions ++ [position]) (states ++ [next]) := by
  induction walk with
  | stay state =>
    cases atEnd
    exact .move taken (.stay next)
  | move first rest ih =>
    rw [rest.getLast?_cons] at atEnd
    exact .move first (ih atEnd)

theorem mem_region
    (closed : ∀ {state next : S}, state ∈ region → next ∈ space.successors state → next ∈ region)
    (walk : space.Walk start positions states) (inside : start ∈ region) :
    ∀ state ∈ states, state ∈ region := by
  induction walk with
  | stay => simpa using inside
  | move taken _ ih =>
    intro state member
    rcases List.mem_cons.1 member with rfl | member
    · exact inside
    · exact ih (closed inside (List.mem_of_getElem? taken)) state member

end Walk

namespace LawfulOn

/-- The successors at one position of two states of equal keys have equal keys. -/
theorem exists_successor (lawful : space.LawfulOn region) {a b next : S} {position : Nat}
    (left : a ∈ region) (right : b ∈ region) (same : space.key a = space.key b)
    (taken : (space.successors a)[position]? = some next) :
    ∃ other, (space.successors b)[position]? = some other ∧ space.key next = space.key other := by
  have keys := congrArg (·[position]?) (lawful.successors_eq left right same)
  simp only [List.getElem?_map, taken, Option.map_some] at keys
  obtain ⟨other, found, key⟩ := Option.map_eq_some_iff.1 keys.symm
  exact ⟨other, found, key.symm⟩

/-- From a state of equal key the same positions lead past states that cannot be told apart. -/
theorem exists_walk (lawful : space.LawfulOn region) {other : S}
    (walk : space.Walk start positions states) (left : start ∈ region) (right : other ∈ region)
    (same : space.key start = space.key other) :
    ∃ others, space.Walk other positions others ∧
      states.map space.key = others.map space.key ∧
      states.map space.isDeadEnd = others.map space.isDeadEnd ∧
      states.map space.isGoal = others.map space.isGoal := by
  induction walk generalizing other with
  | stay state =>
    refine ⟨[other], .stay other, ?_, ?_, ?_⟩
    · simpa using same
    · simpa using lawful.isDeadEnd_eq left right same
    · simpa using lawful.isGoal_eq left right same
  | move taken _ ih =>
    obtain ⟨next, taken', same'⟩ := lawful.exists_successor left right same taken
    obtain ⟨others, walk', keys, deadEnds, goals⟩ :=
      ih (lawful.closed left (List.mem_of_getElem? taken))
        (lawful.closed right (List.mem_of_getElem? taken')) same'
    refine ⟨other :: others, .move taken' walk', ?_, ?_, ?_⟩
    · rw [List.map_cons, List.map_cons, same, keys]
    · rw [List.map_cons, List.map_cons, lawful.isDeadEnd_eq left right same, deadEnds]
    · rw [List.map_cons, List.map_cons, lawful.isGoal_eq left right same, goals]

end LawfulOn

namespace Route

theorem start_alive (route : space.Route blocked start positions states) :
    space.isDeadEnd start = false :=
  route.alive start (List.mem_of_mem_head? route.walk.head?_states)

theorem start_fresh (route : space.Route blocked start positions states) :
    space.key start ∉ blocked :=
  route.fresh start (List.mem_of_mem_head? route.walk.head?_states)

theorem stay (alive : space.isDeadEnd start = false) (fresh : space.key start ∉ blocked) :
    space.Route blocked start [] [start] where
  walk := .stay start
  alive := by simpa using alive
  fresh := by simpa using fresh

theorem move {next : S} {position : Nat} (alive : space.isDeadEnd start = false)
    (fresh : space.key start ∉ blocked)
    (taken : (space.successors start)[position]? = some next)
    (rest : space.Route blocked next positions states) :
    space.Route blocked start (position :: positions) (start :: states) where
  walk := .move taken rest.walk
  alive := by simpa using ⟨alive, rest.alive⟩
  fresh := by simpa using ⟨fresh, rest.fresh⟩

/-- What remains of a route after its first step is one. -/
theorem tail {next : S} {position : Nat} (rest : space.Walk next positions states)
    (route : space.Route blocked start (position :: positions) (start :: states)) :
    space.Route blocked next positions states where
  walk := rest
  alive state member := route.alive state (List.mem_cons_of_mem _ member)
  fresh state member := route.fresh state (List.mem_cons_of_mem _ member)

/-- One more step at the end. -/
theorem concat (route : space.Route blocked start positions states) {last next : S}
    {position : Nat} (atEnd : states.getLast? = some last)
    (taken : (space.successors last)[position]? = some next)
    (alive : space.isDeadEnd next = false) (fresh : space.key next ∉ blocked) :
    space.Route blocked start (positions ++ [position]) (states ++ [next]) where
  walk := route.walk.concat atEnd taken
  alive state member := by
    rcases List.mem_append.1 member with member | member
    · exact route.alive state member
    · rw [List.mem_singleton.1 member]
      exact alive
  fresh state member := by
    rcases List.mem_append.1 member with member | member
    · exact route.fresh state member
    · rw [List.mem_singleton.1 member]
      exact fresh

end Route

namespace Solution

theorem stay (alive : space.isDeadEnd start = false) (fresh : space.key start ∉ blocked)
    (goal : space.isGoal start = true) : space.Solution blocked start [] [start] where
  toRoute := .stay alive fresh
  goal := ⟨start, rfl, goal⟩

theorem move {next : S} {position : Nat} (alive : space.isDeadEnd start = false)
    (fresh : space.key start ∉ blocked)
    (taken : (space.successors start)[position]? = some next)
    (rest : space.Solution blocked next positions states) :
    space.Solution blocked start (position :: positions) (start :: states) where
  toRoute := .move alive fresh taken rest.toRoute
  goal := by
    obtain ⟨state, last, goal⟩ := rest.goal
    exact ⟨state, by rw [List.getLast?_cons, last]; rfl, goal⟩

/-- A solution without a step starts at a goal. -/
theorem isGoal_of_stay (solution : space.Solution blocked start [] [start]) :
    space.isGoal start = true := by
  obtain ⟨state, last, goal⟩ := solution.goal
  cases last
  exact goal

/-- What remains of a solution after its first step is one. -/
theorem tail {next : S} {position : Nat} (rest : space.Walk next positions states)
    (solution : space.Solution blocked start (position :: positions) (start :: states)) :
    space.Solution blocked next positions states where
  toRoute := solution.toRoute.tail rest
  goal := by
    obtain ⟨state, last, goal⟩ := solution.goal
    rw [rest.getLast?_cons] at last
    exact ⟨state, last, goal⟩

theorem mono {more : Set K} (solution : space.Solution more start positions states)
    (subset : blocked ⊆ more) : space.Solution blocked start positions states :=
  { solution with fresh := fun state member inside => solution.fresh state member (subset inside) }

end Solution

theorem Solvable.mono {more : Set K} (solvable : space.Solvable more start)
    (subset : blocked ⊆ more) : space.Solvable blocked start := by
  obtain ⟨positions, states, solution⟩ := solvable
  exact ⟨positions, states, solution.mono subset⟩

theorem not_solvable_of_mem (inside : space.key start ∈ blocked) :
    ¬space.Solvable blocked start := by
  rintro ⟨positions, states, solution⟩
  exact solution.start_fresh inside

theorem not_solvable_of_isDeadEnd (deadEnd : space.isDeadEnd start = true) :
    ¬space.Solvable blocked start := by
  rintro ⟨positions, states, solution⟩
  rw [solution.start_alive] at deadEnd
  cases deadEnd

namespace SimpleSolution

theorem stay (alive : space.isDeadEnd start = false) (fresh : space.key start ∉ blocked)
    (goal : space.isGoal start = true) : space.SimpleSolution blocked start [] [start] where
  toSolution := .stay alive fresh goal
  distinct := List.nodup_singleton _

theorem move {next : S} {position : Nat} (alive : space.isDeadEnd start = false)
    (fresh : space.key start ∉ blocked)
    (taken : (space.successors start)[position]? = some next)
    (rest : space.SimpleSolution (insert (space.key start) blocked) next positions states) :
    space.SimpleSolution blocked start (position :: positions) (start :: states) where
  toSolution := .move alive fresh taken (rest.toSolution.mono (Set.subset_insert _ _))
  distinct := by
    rw [List.map_cons, List.nodup_cons]
    refine ⟨fun again => ?_, rest.distinct⟩
    obtain ⟨state, member, same⟩ := List.mem_map.1 again
    exact rest.fresh state member (.inl same)

/-- What remains of a simple solution after its first step keeps away from the first key too. -/
theorem tail {next : S} {position : Nat} (rest : space.Walk next positions states)
    (solution : space.SimpleSolution blocked start (position :: positions) (start :: states)) :
    space.SimpleSolution (insert (space.key start) blocked) next positions states := by
  have distinct := solution.distinct
  rw [List.map_cons, List.nodup_cons] at distinct
  have onward := solution.toSolution.tail rest
  refine ⟨{ onward with fresh := ?_ }, distinct.2⟩
  rintro state member (same | inside)
  · exact distinct.1 (same ▸ List.mem_map_of_mem member)
  · exact onward.fresh state member inside

theorem mono {more : Set K} (solution : space.SimpleSolution more start positions states)
    (subset : blocked ⊆ more) : space.SimpleSolution blocked start positions states :=
  { solution with toSolution := solution.toSolution.mono subset }

end SimpleSolution

namespace LawfulOn

/-- States of equal keys are solved by the same positions. -/
theorem exists_solution (lawful : space.LawfulOn region) {other : S}
    (solution : space.Solution blocked start positions states) (left : start ∈ region)
    (right : other ∈ region) (same : space.key start = space.key other) :
    ∃ others, space.Solution blocked other positions others := by
  obtain ⟨others, walk, keys, deadEnds, goals⟩ :=
    lawful.exists_walk solution.walk left right same
  refine ⟨others, ⟨walk, ?_, ?_⟩, ?_⟩
  · intro state member
    have image := List.mem_map_of_mem (f := space.isDeadEnd) member
    rw [← deadEnds] at image
    obtain ⟨original, member', same⟩ := List.mem_map.1 image
    rw [← same]
    exact solution.alive original member'
  · intro state member
    have image := List.mem_map_of_mem (f := space.key) member
    rw [← keys] at image
    obtain ⟨original, member', same⟩ := List.mem_map.1 image
    rw [← same]
    exact solution.fresh original member'
  · obtain ⟨state, last, goal⟩ := solution.goal
    have atEnd := congrArg List.getLast? goals
    rw [List.getLast?_map, List.getLast?_map, last, Option.map_some, goal] at atEnd
    obtain ⟨final, last', goal'⟩ := Option.map_eq_some_iff.1 atEnd.symm
    exact ⟨final, last', goal'⟩

theorem solvable_congr (lawful : space.LawfulOn region) {a b : S} (left : a ∈ region)
    (right : b ∈ region) (same : space.key a = space.key b) :
    space.Solvable blocked a ↔ space.Solvable blocked b := by
  constructor
  · rintro ⟨positions, states, solution⟩
    exact ⟨positions, lawful.exists_solution solution left right same⟩
  · rintro ⟨positions, states, solution⟩
    exact ⟨positions, lawful.exists_solution solution right left same.symm⟩

/-- A solution need not come back to a state that is no goal: cut at its last visit there, it goes
around that state, either from its own start or from a successor of that state. -/
theorem solvable_around (lawful : space.LawfulOn region) {state : S} (inside : state ∈ region)
    (noGoal : space.isGoal state = false) (within : start ∈ region)
    (solvable : space.Solvable blocked start) :
    space.Solvable (insert (space.key state) blocked) start ∨
      ∃ next ∈ space.successors state, space.Solvable (insert (space.key state) blocked) next := by
  obtain ⟨positions, states, solution⟩ := solvable
  have walk := solution.walk
  induction walk with
  | stay start =>
    have goal := solution.isGoal_of_stay
    have other : space.key start ≠ space.key state := by
      intro same
      rw [lawful.isGoal_eq within inside same, noGoal] at goal
      cases goal
    left
    exact ⟨[], [start], .stay solution.start_alive (by simp [other, solution.start_fresh]) goal⟩
  | @move start next position positions states taken rest ih =>
    have member := List.mem_of_getElem? taken
    rcases ih (lawful.closed within member) (solution.tail rest) with
      ⟨positions', states', around⟩ | onward
    · by_cases same : space.key start = space.key state
      · -- The last visit: the rest of the walk starts at a successor of `state`, up to keys.
        obtain ⟨other, taken', same'⟩ := lawful.exists_successor within inside same taken
        have member' := List.mem_of_getElem? taken'
        right
        refine ⟨other, member', (lawful.solvable_congr (lawful.closed within member)
          (lawful.closed inside member') same').1 ⟨positions', states', around⟩⟩
      · left
        exact ⟨position :: positions', start :: states',
          .move solution.start_alive (by simp [same, solution.start_fresh]) taken around⟩
    · exact .inr onward

end LawfulOn

end StateSpace

end SearchSpace
