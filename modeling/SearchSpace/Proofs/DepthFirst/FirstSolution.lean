import SearchSpace.Proofs.DepthFirst.Exploration
import SearchSpace.Proofs.Graph

/-!
# Depth-first search finds the first simple solution

The visited set holds the states on the way down and those that are finished. Of the finished ones
none leads to a goal around the way down: that is the invariant. A way to a goal that passes through
a state just finished could be cut there, and what remains would start at one of its successors. So
a branch that is skipped because of another branch holds no solution, and the first solution in the
order of the positions is the one found.
-/

namespace SearchSpace.DepthFirst

universe u v

variable {S : Type u} {K : Type v}

/-- The states are passed on a walk from a state of a list, and no simple solution from a state of
the list has lesser positions, the place in the list counted as the first of them. -/
def First (space : StateSpace S K) (blocked : Set K) (listed states : List S) : Prop :=
  ∃ index start positions, listed[index]? = some start ∧ space.Walk start positions states ∧
    ∀ index' start' positions' states', listed[index']? = some start' →
      space.SimpleSolution blocked start' positions' states' →
      index :: positions ≤ index' :: positions'

namespace First

variable {space : StateSpace S K} {blocked : Set K} {state : S} {listed states : List S}

theorem goal (state : S) : First space blocked [state] [state] := by
  refine ⟨0, state, [], rfl, .stay state, fun index' start' positions' states' _ _ => ?_⟩
  rw [StateSpace.positions_le_iff]
  rcases Nat.eq_zero_or_pos index' with rfl | later
  · exact .inr ⟨rfl, not_lt.1 (List.not_lt_nil _)⟩
  · exact .inl later

/-- A first simple solution from a successor, around the state itself, is one from the state. -/
theorem behind (noGoal : space.isGoal state = false)
    (first : First space (insert (space.key state) blocked) (space.successors state) states) :
    First space blocked [state] (state :: states) := by
  obtain ⟨index, start, positions, taken, walk, least⟩ := first
  refine ⟨0, state, index :: positions, rfl, .move taken walk, ?_⟩
  intro index' start' positions' states' listed solution
  rw [StateSpace.positions_le_iff]
  cases index' with
  | succ => exact .inl (Nat.succ_pos _)
  | zero =>
    cases listed
    have walk' := solution.walk
    cases walk' with
    | stay =>
      have goal := solution.isGoal_of_stay
      rw [noGoal] at goal
      cases goal
    | move taken' rest => exact .inr ⟨rfl, least _ _ _ _ taken' (solution.tail rest)⟩

/-- A state in front from which no solution starts makes no difference. -/
theorem skip (unsolvable : ¬space.Solvable blocked state)
    (first : First space blocked listed states) : First space blocked (state :: listed) states := by
  obtain ⟨index, start, positions, found, walk, least⟩ := first
  refine ⟨index + 1, start, positions, found, walk, ?_⟩
  intro index' start' positions' states' listed' solution
  cases index' with
  | zero =>
    cases listed'
    exact absurd ⟨positions', states', solution.toSolution⟩ unsolvable
  | succ index' =>
    have least := least index' start' positions' states' listed' solution
    rw [StateSpace.positions_le_iff] at least ⊢
    rcases least with less | ⟨rfl, le⟩
    · exact .inl (Nat.succ_lt_succ less)
    · exact .inr ⟨rfl, le⟩

/-- States behind the one from which the solution starts make no difference. -/
theorem cons (first : First space blocked [state] states) :
    First space blocked (state :: listed) states := by
  obtain ⟨index, start, positions, found, walk, least⟩ := first
  obtain ⟨rfl, rfl⟩ : index = 0 ∧ state = start := by
    cases index <;> simp_all
  refine ⟨0, state, positions, rfl, walk, ?_⟩
  intro index' start' positions' states' listed' solution
  cases index' with
  | zero => exact least 0 start' positions' states' listed' solution
  | succ => exact StateSpace.positions_le_iff.2 (.inl (Nat.succ_pos _))

end First

variable [BEq K] [Hashable K]

/-- No state of the region that was visited leads to a goal around the blocked keys. -/
def Barren (space : StateSpace S K) (region : Set S) (blocked : Set K) (visited : VisitedSet K) :
    Prop :=
  ∀ state ∈ region, space.key state ∈ visited → ¬space.Solvable blocked state

variable {space : StateSpace S K} {region : Set S} {blocked : Set K} {state : S}
  {limits : Limits}

namespace Barren

variable {visited : VisitedSet K}

/-- On the way down: with the state itself blocked, marking it changes nothing. -/
theorem enter [LawfulBEq K] (barren : Barren space region blocked visited) :
    Barren space region (insert (space.key state) blocked)
      (visited.insert (space.key state)).2 := by
  intro other within member
  rcases VisitedSet.mem_insert.1 member with same | member
  · exact StateSpace.not_solvable_of_mem (.inl same)
  · intro solvable
    exact barren other within member (solvable.mono (Set.subset_insert _ _))

/-- On the way back: the state may be unblocked once none of its successors leads to a goal. -/
theorem leave (barren : Barren space region (insert (space.key state) blocked) visited)
    (lawful : space.LawfulOn region) (inside : state ∈ region)
    (noGoal : space.isGoal state = false)
    (unsolvable : ∀ next ∈ space.successors state,
      ¬space.Solvable (insert (space.key state) blocked) next) :
    Barren space region blocked visited := by
  intro other within member solvable
  rcases lawful.solvable_around inside noGoal within solvable with
    around | ⟨next, successor, onward⟩
  · exact barren other within member around
  · exact unsolvable next successor onward

/-- A state that leads to no goal may be marked. -/
theorem mark [LawfulBEq K] (barren : Barren space region blocked visited)
    (lawful : space.LawfulOn region) (inside : state ∈ region)
    (unsolvable : ¬space.Solvable blocked state) :
    Barren space region blocked (visited.insert (space.key state)).2 := by
  intro other within member
  rcases VisitedSet.mem_insert.1 member with same | member
  · rwa [lawful.solvable_congr within inside same]
  · exact barren other within member

end Barren

/-- What a task relies on: the blocked keys were visited, the states lie in the region, the one to
be entered was not visited, and no visited state leads to a goal around the blocked keys. -/
structure Ready (space : StateSpace S K) (region : Set S) (blocked : Set K)
    (visited : VisitedSet K) (task : Task S) : Prop where
  blocked_subset : blocked ⊆ visited.toSet
  inside : ∀ state ∈ task.states, state ∈ region
  unvisited : task.Unvisited space visited
  barren : Barren space region blocked visited

namespace Ready

variable {visited : VisitedSet K} {next : S} {others : List S}

theorem successors [LawfulBEq K] (ready : Ready space region blocked visited (.state state))
    (lawful : space.LawfulOn region) :
    Ready space region (insert (space.key state) blocked)
      (visited.insert (space.key state)).2 (.siblings (space.successors state)) where
  blocked_subset := by
    rw [VisitedSet.toSet_insert]
    exact Set.insert_subset_insert ready.blocked_subset
  inside next successor := lawful.closed (ready.inside state List.mem_cons_self) successor
  unvisited := trivial
  barren := ready.barren.enter

theorem first (ready : Ready space region blocked visited (.siblings (next :: others)))
    (fresh : space.key next ∉ visited) : Ready space region blocked visited (.state next) where
  blocked_subset := ready.blocked_subset
  inside state member := by
    obtain rfl := List.mem_singleton.1 member
    exact ready.inside state List.mem_cons_self
  unvisited := fresh
  barren := ready.barren

theorem rest (ready : Ready space region blocked visited (.siblings (next :: others)))
    {later : VisitedSet K} (subset : visited.toSet ⊆ later.toSet)
    (barren : Barren space region blocked later) :
    Ready space region blocked later (.siblings others) where
  blocked_subset := ready.blocked_subset.trans subset
  inside state member := ready.inside state (List.mem_cons_of_mem _ member)
  unvisited := trivial
  barren := barren

/-- After a state that led to no goal, and was marked for it, the others are looked into. -/
theorem failed [LawfulBEq K]
    (ready : Ready space region blocked visited (.siblings (next :: others)))
    (lawful : space.LawfulOn region) {later : VisitedSet K} (subset : visited.toSet ⊆ later.toSet)
    (barren : Barren space region blocked later) (unsolvable : ¬space.Solvable blocked next) :
    Ready space region blocked (later.insert (space.key next)).2 (.siblings others) := by
  have marked := barren.mark lawful (ready.inside next List.mem_cons_self) unsolvable
  refine ready.rest ?_ marked
  rw [VisitedSet.toSet_insert]
  exact subset.trans (Set.subset_insert _ _)

end Ready

variable [LawfulBEq K] {remaining : Nat} {task : Task S} {entered : List S}
  {before after : Progress K} {verdict : Verdict S}

/-- An exploration that exhausts its task leaves no solution around the blocked keys, neither from
the states of the task nor from any that was visited. -/
theorem Explores.barren_of_exhausted (lawful : space.LawfulOn region)
    (explores : Explores space limits remaining task entered before verdict after)
    (ready : Ready space region blocked before.visited task) (exhausted : verdict = .exhausted) :
    Barren space region blocked after.visited ∧
      ∀ state ∈ task.states, ¬space.Solvable blocked state := by
  induction explores generalizing blocked with
  | tooDeep => cases exhausted
  | deadEnd deadEnd =>
    refine ⟨ready.barren, fun state member => ?_⟩
    obtain rfl := List.mem_singleton.1 member
    exact StateSpace.not_solvable_of_isDeadEnd deadEnd
  | goal => cases exhausted
  | spent => cases exhausted
  | @expanded remaining state entered before after verdict alive noGoal within explores ih =>
    have inside := ready.inside state List.mem_cons_self
    have ⟨barren, unsolvable⟩ := ih (ready.successors lawful)
      (Verdict.behind_eq_exhausted.1 exhausted)
    have left := barren.leave lawful inside noGoal unsolvable
    refine ⟨left, fun other member => ?_⟩
    obtain rfl := List.mem_singleton.1 member
    exact left other inside (explores.visited_subset (VisitedSet.mem_insert.2 (.inl rfl)))
  | done => exact ⟨ready.barren, fun state member => by cases member⟩
  | seen known _ ih =>
    have ⟨barren, unsolvable⟩ := ih (ready.rest subset_rfl ready.barren) exhausted
    refine ⟨barren, List.forall_mem_cons.2 ⟨?_, unsolvable⟩⟩
    exact ready.barren _ (ready.inside _ List.mem_cons_self) known
  | @failed remaining next rest entered others before middle after verdict fresh explores _ ih
      ih' =>
    have ⟨barren, unsolvable⟩ := ih (ready.first fresh) rfl
    have unsolvable := unsolvable next List.mem_cons_self
    have ⟨barren', unsolvable'⟩ :=
      ih' (ready.failed lawful explores.visited_subset barren unsolvable) exhausted
    exact ⟨barren', List.forall_mem_cons.2 ⟨unsolvable, unsolvable'⟩⟩
  | decided _ undecided => exact absurd exhausted undecided

/-- An exploration that finds a path finds the first simple solution around the blocked keys. -/
theorem Explores.first_of_found (lawful : space.LawfulOn region) {states : List S}
    (explores : Explores space limits remaining task entered before verdict after)
    (ready : Ready space region blocked before.visited task) (found : verdict = .found states) :
    First space blocked task.states states := by
  induction explores generalizing blocked states with
  | tooDeep => cases found
  | deadEnd => cases found
  | goal =>
    cases found
    exact .goal _
  | spent => cases found
  | expanded _ noGoal _ _ ih =>
    obtain ⟨rest, inner, rfl⟩ := Verdict.behind_eq_found.1 found
    exact (ih (ready.successors lawful) inner).behind noGoal
  | done => cases found
  | seen known _ ih =>
    have first := ih (ready.rest subset_rfl ready.barren) found
    exact first.skip (ready.barren _ (ready.inside _ List.mem_cons_self) known)
  | @failed remaining next rest entered others before middle after verdict fresh explores _ _ ih =>
    have ⟨barren, unsolvable⟩ := explores.barren_of_exhausted lawful (ready.first fresh) rfl
    have unsolvable := unsolvable next List.mem_cons_self
    have onward := ready.failed lawful explores.visited_subset barren unsolvable
    exact (ih onward found).skip unsolvable
  | decided fresh _ _ ih => exact (ih (ready.first fresh) found).cons

section Search

variable {visited : VisitedSet K} {initial : S} {states : List S}

omit [LawfulBEq K] in
/-- At the start of a search only what was visited before is blocked. -/
theorem ready_initial (inside : initial ∈ region) (fresh : space.key initial ∉ visited) :
    Ready space region visited.toSet visited (.state initial) where
  blocked_subset := subset_rfl
  inside state member := by
    obtain rfl := List.mem_singleton.1 member
    exact inside
  unvisited := fresh
  barren state _ member := StateSpace.not_solvable_of_mem member

/-- A search that exhausts the space leaves no solution, simple or not. -/
theorem not_solvable_of_exhausted (lawful : space.LawfulOn region) (inside : initial ∈ region)
    (exhausted : (search space limits visited initial).verdict = .exhausted) :
    ¬space.Solvable visited.toSet initial := by
  rcases exists_explores_search space limits visited initial with
    ⟨known, -⟩ | ⟨fresh, entered, explores⟩
  · exact StateSpace.not_solvable_of_mem known
  · have ⟨_, unsolvable⟩ :=
      explores.barren_of_exhausted lawful (ready_initial inside fresh) exhausted
    exact unsolvable initial List.mem_cons_self

/-- A search that finds a path finds a simple solution, and of those the first. -/
theorem exists_solution_of_found (lawful : space.LawfulOn region) (inside : initial ∈ region)
    (found : (search space limits visited initial).verdict = .found states) :
    ∃ positions, space.SimpleSolution visited.toSet initial positions states ∧
      ∀ others states', space.SimpleSolution visited.toSet initial others states' →
        positions ≤ others := by
  rcases exists_explores_search space limits visited initial with
    ⟨known, answer⟩ | ⟨fresh, entered, explores⟩
  · rw [answer] at found
    cases found
  · obtain ⟨⟨start, member, _, simple⟩, -⟩ := explores.found fresh found
    obtain rfl := List.mem_singleton.1 member
    obtain ⟨index, start', positions, listed, walk, least⟩ :=
      explores.first_of_found lawful (ready_initial inside fresh) found
    obtain ⟨rfl, rfl⟩ : index = 0 ∧ start = start' := by
      cases index <;> simp_all [Task.states]
    refine ⟨positions, { simple with walk := walk }, fun others states' solution => ?_⟩
    rcases StateSpace.positions_le_iff.1 (least 0 start others states' rfl solution) with
      less | ⟨-, le⟩
    · exact absurd less (Nat.lt_irrefl 0)
    · exact le

/-- In a lawful space a depth-first search that is not stopped answers with no path exactly if there
is no simple solution, and otherwise with the one whose positions are lexicographically least. -/
theorem search_first_simple (lawful : space.Lawful) {report : Report S}
    (reported : (search space limits visited initial).report = .ok report) :
    (report.path.isEmpty = true ↔
      ¬∃ positions states, space.SimpleSolution visited.toSet initial positions states) ∧
    (report.path.isEmpty = false → ∃ positions,
      space.SimpleSolution visited.toSet initial positions report.path.states ∧
      ∀ others states, space.SimpleSolution visited.toSet initial others states →
        positions ≤ others) := by
  rcases Outcome.verdict_of_report reported with found | ⟨exhausted, empty⟩
  · obtain ⟨positions, solution, first⟩ :=
      exists_solution_of_found lawful.lawfulOn_univ (Set.mem_univ _) found
    have nonempty : report.path.isEmpty = false :=
      List.isEmpty_eq_false_iff.2 solution.walk.states_ne_nil
    refine ⟨?_, fun _ => ⟨positions, solution, first⟩⟩
    rw [nonempty]
    exact iff_of_false Bool.false_ne_true (not_not.2 ⟨positions, _, solution⟩)
  · have unsolvable :=
      not_solvable_of_exhausted lawful.lawfulOn_univ (Set.mem_univ _) exhausted
    rw [empty]
    refine ⟨iff_of_true rfl ?_, fun nonempty => by cases nonempty⟩
    rintro ⟨positions, states, solution⟩
    exact unsolvable ⟨positions, states, solution.toSolution⟩

theorem search_first_simple_diamond : Graph.diamond.space.Lawful ∧ ∃ report,
    (search Graph.diamond.space { maxDepth := 2 } ∅ 0).report = .ok report ∧
    report.path.states = [0, 1, 3] ∧ ∃ positions,
      Graph.diamond.space.SimpleSolution (∅ : VisitedSet Nat).toSet 0 positions [0, 1, 3] ∧
      ∀ others states,
        Graph.diamond.space.SimpleSolution (∅ : VisitedSet Nat).toSet 0 others states →
        positions ≤ others := by
  have found : (search Graph.diamond.space { maxDepth := 2 } ∅ 0).verdict = .found [0, 1, 3] := by
    simp [search, Graph.diamond, Graph.space, Graph.successors, Graph.key, explore, firstRoute,
      VisitedSet.not_mem_empty, VisitedSet.mem_insert, Limits.spent]
  have reported := Outcome.report_of_found found
  have lawful : Graph.diamond.space.Lawful := Graph.lawful_space rfl
  have first := search_first_simple lawful reported
  exact ⟨lawful, _, reported, rfl, first.2 rfl⟩

end Search

end SearchSpace.DepthFirst
