import Mathlib.Data.Set.Card
import Mathlib.Data.Set.Finite.Lattice
import SearchSpace.Proofs.Agreement
import SearchSpace.Proofs.DepthFirst.Stack
import SearchSpace.Proofs.Termination

/-!
# Searches that end

A depth-first search always ends. A breadth-first search may go on for ever, but not if it has a
budget, nor if it can expand only finitely many keys, since it expands each of them at most once,
nor in a lawful space with a solution, since it expands no state further away than that. Where the
keys are finitely many, neither strategy expands more states than there are keys.
-/

namespace SearchSpace

universe u v

variable {S : Type u} {K : Type v}

/-- A list of members of a finite set, each once, has no more of them than the set. -/
theorem length_le_ncard {α : Type v} {set : Set α} {list : List α} (finite : set.Finite)
    (distinct : list.Nodup) (inside : ∀ member ∈ list, member ∈ set) :
    list.length ≤ set.ncard := by
  have subset : list ⊆ finite.toFinset.toList := fun member listed =>
    Finset.mem_toList.2 (finite.mem_toFinset.2 (inside member listed))
  rw [Set.ncard_eq_toFinset_card set finite, ← Finset.length_toList]
  exact (distinct.subperm subset).length_le

namespace StateSpace

/-- The keys of the states that are reached and are neither dead ends nor blocked. A search expands
no others, so those at the border do not count. -/
def passable (space : StateSpace S K) (blocked : Set K) (start : S) : Set K :=
  {key | ∃ state, space.Reaches blocked start state ∧ space.isDeadEnd state = false ∧
    space.key state ∉ blocked ∧ space.key state = key}

/-- The walks from a state of at most so many transitions. -/
def walksUpTo (space : StateSpace S K) (bound : Nat) (start : S) : Set (List Nat) :=
  {positions | positions.length ≤ bound ∧ ∃ states, space.Walk start positions states}

/-- Each state has finitely many successors, so there are finitely many walks of bounded length. -/
theorem finite_walksUpTo (space : StateSpace S K) (bound : Nat) (start : S) :
    (space.walksUpTo bound start).Finite := by
  induction bound generalizing start with
  | zero =>
    apply (Set.finite_singleton []).subset
    rintro positions ⟨le, -⟩
    exact List.length_eq_zero_iff.1 (Nat.le_zero.1 le)
  | succ bound ih =>
    have onward : (⋃ index : Fin (space.successors start).length,
        (index.val :: ·) '' space.walksUpTo bound (space.successors start)[index]).Finite :=
      Set.finite_iUnion fun index => (ih (space.successors start)[index]).image _
    apply ((Set.finite_singleton []).union onward).subset
    rintro positions ⟨le, states, walk⟩
    cases walk with
    | stay => exact .inl rfl
    | @move _ next position positions states taken rest =>
      obtain ⟨lt, rfl⟩ := List.getElem?_eq_some_iff.1 taken
      right
      rw [Set.mem_iUnion]
      exact ⟨⟨position, lt⟩, positions, ⟨Nat.le_of_succ_le_succ le, states, rest⟩, rfl⟩

end StateSpace

variable [BEq K] [Hashable K] {space : StateSpace S K} {limits : Limits} {visited : VisitedSet K}
  {blocked : Set K} {initial start : S}

/-! ## Breadth first -/

namespace BreadthFirst

variable {history : History S} {frontier : Frontier S K} {region : Set S} {positions : List Nat}
  {states : List S} {outcome : Outcome S K}

/-- The keys expanded so far are passable, and each was expanded once. -/
theorem Explains.length_le_ncard (explains : Explains space blocked start history frontier)
    (finite : (space.passable blocked start).Finite) :
    history.expanded.length ≤ (space.passable blocked start).ncard := by
  have inside : ∀ key ∈ (history.expanded.map Arrival.state).map space.key,
      key ∈ space.passable blocked start := by
    intro key member
    obtain ⟨state, inExpanded, rfl⟩ := List.mem_map.1 member
    obtain ⟨arrival, expanded, rfl⟩ := List.mem_map.1 inExpanded
    have route := (explains.genuine arrival (List.mem_append_left _ expanded)).route
    have passed : arrival.state ∈ arrival.trail.toList := Arrival.mem_toList.2 (.inl rfl)
    exact ⟨arrival.state, route.reaches _ passed, route.alive _ passed, route.fresh _ passed, rfl⟩
  have le := SearchSpace.length_le_ncard finite explains.nodup_expanded inside
  rwa [List.length_map, List.length_map] at le

/-- The walks expanded so far are different ones. -/
theorem Explains.nodup_positions (explains : Explains space blocked start history frontier) :
    (history.expanded.map Arrival.positions).Nodup := by
  apply List.pairwise_map.2
  refine (List.pairwise_append.1 explains.sorted).1.imp fun sooner same => ?_
  exact Sooner.irrefl _ (same ▸ sooner)

/-- While a solution is waited for, no walk that is longer was expanded. -/
theorem Explains.length_le_of_solution (explains : Explains space blocked start history frontier)
    (lawful : space.LawfulOn region) (inside : start ∈ region)
    (solution : space.Solution blocked start positions states) :
    history.expanded.length ≤ (space.walksUpTo positions.length start).ncard := by
  obtain ⟨other, waiting, noLater⟩ := explains.exists_waiting lawful inside solution
  have short : ∀ walk ∈ history.expanded.map Arrival.positions,
      walk ∈ space.walksUpTo positions.length start := by
    intro walk member
    obtain ⟨arrival, expanded, rfl⟩ := List.mem_map.1 member
    have sooner := (List.pairwise_append.1 explains.sorted).2.2 arrival expanded other waiting
    have route := (explains.genuine arrival (List.mem_append_left _ expanded)).route
    refine ⟨?_, _, route.walk⟩
    rcases (NoLater.trans (.inr sooner) noLater).length_lt_or_le with shorter | ⟨same, -⟩
    · exact Nat.le_of_lt shorter
    · exact Nat.le_of_eq same
  have le := SearchSpace.length_le_ncard (space.finite_walksUpTo positions.length start)
    explains.nodup_positions short
  rwa [List.length_map] at le

theorem Decided.expansions_le_ncard (decided : Decided space limits visited initial outcome)
    (finite : (space.passable visited.toSet initial).Finite) :
    outcome.progress.stats.expansions ≤ (space.passable visited.toSet initial).ncard := by
  cases decided with
  | visited => exact Nat.zero_le _
  | deadEnd => exact Nat.zero_le _
  | goal => exact Nat.zero_le _
  | rounds _ _ explains _ round =>
    rw [round.progress_eq, explains.stats_eq]
    exact explains.length_le_ncard finite

/-- A budget, finitely many keys, or in a lawful space a solution: each makes the search end. -/
theorem exists_rounds [LawfulBEq K] (ends : limits.maxExpansions ≠ none ∨
      (space.passable visited.toSet initial).Finite ∨
      space.Lawful ∧ space.Solvable visited.toSet initial) :
    ∃ rounds outcome, search space limits rounds visited initial = some outcome := by
  rcases ends with bounded | finite | ⟨lawful, positions, states, solution⟩
  · obtain ⟨limit, budget⟩ := Option.ne_none_iff_exists'.1 bounded
    exact ⟨limit.toNat + 1, exists_outcome_of_budget budget (Nat.lt_succ_self _)⟩
  · exact ⟨_, exists_outcome_of_length_le (fun explains => explains.length_le_ncard finite)
      (Nat.lt_succ_self _)⟩
  · exact ⟨_, exists_outcome_of_length_le (fun explains =>
      explains.length_le_of_solution lawful.lawfulOn_univ (Set.mem_univ _) solution)
      (Nat.lt_succ_self _)⟩

end BreadthFirst

/-! ## Depth first -/

namespace DepthFirst

variable {remaining : Nat} {task : Task S} {state next : S} {rest entered others : List S}
  {before middle after : Progress K} {verdict : Verdict S}

/-- What a task has come to, whatever it decides: it has expanded no more than it has discovered. -/
structure Counted (space : StateSpace S K) (blocked : Set K) (task : Task S) (entered : List S)
    (before after : Progress K) : Prop
    extends Discovered space blocked task entered before.visited where
  expansions_le : after.stats.expansions ≤
    before.stats.expansions + entered.countP fun state => !space.isDeadEnd state

namespace Counted

/-- A state that is entered and not expanded. -/
theorem alone (fresh : space.key state ∉ before.visited)
    (same : after.stats.expansions = before.stats.expansions) :
    Counted space blocked (.state state) [state] before after where
  toDiscovered := .alone fresh
  expansions_le := by
    rw [same]
    exact Nat.le_add_right _ _

/-- A state that is expanded, with all that its successors come to. -/
theorem behind [LawfulBEq K]
    (inner : Counted space blocked (.siblings (space.successors state)) entered
      (before.mark (space.key state)).countExpanded after)
    (fresh : space.key state ∉ before.visited) (unblocked : space.key state ∉ blocked)
    (alive : space.isDeadEnd state = false) :
    Counted space blocked (.state state) (state :: entered) before after where
  toDiscovered := inner.toDiscovered.behind fresh unblocked alive
  expansions_le := by
    have le := inner.expansions_le
    rw [Progress.stats_countExpanded, Progress.expansions_mark] at le
    rw [List.countP_cons, alive]
    simp only [Bool.not_false, if_true] at le ⊢
    omega

/-- A state that failed and the states after it are counted together. -/
theorem append (covered : Covered space blocked (.state next) entered before middle)
    (counted : Counted space blocked (.siblings rest) others middle after) :
    Counted space blocked (.siblings (next :: rest)) (entered ++ others) before after where
  toDiscovered := covered.discovered.append counted.toDiscovered covered.visited_iff
  expansions_le := by
    have le := counted.expansions_le
    have balance := covered.balance
    have parts := List.length_eq_countP_add_countP space.isDeadEnd (l := entered)
    simp only [decide_not, Bool.decide_eq_true] at parts
    rw [covered.pruned_eq] at balance
    rw [List.countP_append]
    omega

end Counted

variable [LawfulBEq K]

/-- Every exploration is counted. -/
theorem Explores.counted
    (explores : Explores space limits remaining task entered before verdict after)
    (unvisited : task.Unvisited space before.visited)
    (blocked_subset : blocked ⊆ before.visited.toSet) :
    Counted space blocked task entered before after := by
  induction explores with
  | tooDeep => exact .alone unvisited rfl
  | deadEnd => exact .alone unvisited rfl
  | goal => exact .alone unvisited rfl
  | spent => exact .alone unvisited rfl
  | expanded alive _ _ _ ih =>
    have inner := ih trivial (blocked_subset.trans VisitedSet.subset_insert)
    exact inner.behind unvisited (fun member => unvisited (blocked_subset member)) alive
  | done => exact ⟨.nil _, Nat.le_refl _⟩
  | seen _ _ ih =>
    have counted := ih trivial blocked_subset
    exact ⟨counted.skip, counted.expansions_le⟩
  | failed fresh explores _ _ ih =>
    -- A state that failed was explored to the end, so all that it entered has been marked.
    have covered := explores.covered fresh blocked_subset rfl
    have subset := blocked_subset.trans fun key => covered.subset
    exact .append covered (ih trivial subset)
  | decided fresh _ _ ih =>
    have counted := ih fresh blocked_subset
    exact ⟨counted.first, counted.expansions_le⟩

theorem expansions_le_ncard (finite : (space.passable visited.toSet initial).Finite) :
    (search space limits visited initial).progress.stats.expansions ≤
      (space.passable visited.toSet initial).ncard := by
  rcases exists_explores_search space limits visited initial with
    ⟨-, answer⟩ | ⟨fresh, entered, explores⟩
  · rw [answer]
    exact Nat.zero_le _
  · have counted : Counted space visited.toSet _ entered { visited } _ :=
      explores.counted fresh subset_rfl
    have inside : ∀ key ∈ (entered.filter fun state => !space.isDeadEnd state).map space.key,
        key ∈ space.passable visited.toSet initial := by
      intro key member
      obtain ⟨state, kept, rfl⟩ := List.mem_map.1 member
      obtain ⟨inEntered, alive⟩ := List.mem_filter.1 kept
      obtain ⟨start, inTask, reaches⟩ := counted.reached state inEntered
      obtain rfl := List.mem_singleton.1 inTask
      exact ⟨state, reaches, by simpa using alive, counted.fresh state inEntered, rfl⟩
    have few := length_le_ncard finite
      (counted.distinct.sublist (List.filter_sublist.map _)) inside
    rw [List.length_map, ← List.countP_eq_length_filter] at few
    have le := counted.expansions_le
    rw [show ({ visited } : Progress K).stats.expansions = 0 from rfl, Nat.zero_add] at le
    exact le.trans few

end DepthFirst

/-! ## Both strategies -/

namespace Solver

variable [LawfulBEq K]

/-- With finitely many keys to expand every solver answers, and expands no more states than that. -/
theorem exists_answer_of_finite (finite : (space.passable visited.toSet initial).Finite)
    (strategy : Strategy) : ∃ outcome,
      (⟨strategy, limits⟩ : Solver).Answers space visited initial outcome ∧
      outcome.progress.stats.expansions ≤ (space.passable visited.toSet initial).ncard := by
  cases strategy with
  | dfs => exact ⟨_, answers_dfs_iff.2 rfl, DepthFirst.expansions_le_ncard finite⟩
  | bfs =>
    obtain ⟨rounds, outcome, answered⟩ : ∃ rounds outcome,
        BreadthFirst.search space limits rounds visited initial = some outcome :=
      BreadthFirst.exists_rounds (.inr (.inl finite))
    exact ⟨outcome, ⟨rounds, answered⟩,
      (BreadthFirst.decided_search answered).expansions_le_ncard finite⟩

/-- A depth-first search ends whatever the space, with the answer of `DepthFirst.search` and no
other, and looks at no state more than one transition further down than it may go. A breadth-first
search ends if it has a budget, if finitely many keys can be expanded, or if the space is lawful and
there is a solution. In the second case neither expands more states than there are such keys. -/
theorem search_terminates (space : StateSpace S K) (limits : Limits) (visited : VisitedSet K)
    (initial : S) :
    (∀ outcome, DepthFirst.Runs space limits (DepthFirst.start space visited initial)
        (.inl outcome) ↔ DepthFirst.search space limits visited initial = outcome) ∧
    (∀ machine, DepthFirst.Runs space limits (DepthFirst.start space visited initial)
        (.inr machine) → machine.depth ≤ limits.maxDepth.toNat + 1) ∧
    (limits.maxExpansions ≠ none ∨ (space.passable visited.toSet initial).Finite ∨
        space.Lawful ∧ space.Solvable visited.toSet initial →
      ∃ rounds outcome, BreadthFirst.search space limits rounds visited initial = some outcome) ∧
    ((space.passable visited.toSet initial).Finite → ∀ strategy, ∃ outcome,
      (⟨strategy, limits⟩ : Solver).Answers space visited initial outcome ∧
      outcome.progress.stats.expansions ≤ (space.passable visited.toSet initial).ncard) :=
  ⟨fun _ => DepthFirst.runs_start_iff, fun _ => DepthFirst.depth_le_of_runs,
    BreadthFirst.exists_rounds, exists_answer_of_finite⟩

/-- Steps without end, the third of them the goal. -/
def staircase : StateSpace Nat Nat where
  successors step := [step + 1]
  isGoal step := step == 3
  key step := step

/-- Around the second step the staircase is finite. -/
theorem passable_staircase :
    staircase.passable (VisitedSet.ofList [2]).toSet 0 ⊆ ({0, 1} : Set Nat) := by
  rintro key ⟨state, reaches, -, fresh, rfl⟩
  have le : state ≤ 2 := by
    clear fresh
    induction reaches with
    | start => exact Nat.zero_le 2
    | @step state next _ _ fresh successor ih =>
      obtain rfl := List.mem_singleton.1 successor
      have unmarked : state ≠ 2 := by simpa [staircase, VisitedSet.mem_ofList] using fresh
      omega
  have unmarked : state ≠ 2 := by simpa [staircase, VisitedSet.mem_ofList] using fresh
  have position : state = 0 ∨ state = 1 := by omega
  exact position

/-- The staircase is never exhausted, but the goal is found; around the second step neither strategy
expands more than two steps. -/
theorem search_terminates_staircase : staircase.Lawful ∧
    staircase.Solvable (∅ : VisitedSet Nat).toSet 0 ∧
    (∃ rounds outcome, BreadthFirst.search staircase { maxDepth := 1 } rounds ∅ 0 =
      some outcome) ∧
    DepthFirst.Runs staircase { maxDepth := 1 } (DepthFirst.start staircase ∅ 0)
      (.inl (DepthFirst.search staircase { maxDepth := 1 } ∅ 0)) ∧
    ∀ strategy, ∃ outcome,
      (⟨strategy, {}⟩ : Solver).Answers staircase (.ofList [2]) 0 outcome ∧
      outcome.progress.stats.expansions ≤ 2 := by
  have lawful : staircase.Lawful := by
    constructor <;> rintro a b (rfl : a = b) <;> rfl
  have unblocked : ∀ key, key ∉ (∅ : VisitedSet Nat).toSet := fun _ => VisitedSet.not_mem_empty
  have solvable : staircase.Solvable (∅ : VisitedSet Nat).toSet 0 :=
    ⟨[0, 0, 0], [0, 1, 2, 3], .move rfl (unblocked 0) rfl (.move rfl (unblocked 1) rfl
      (.move rfl (unblocked 2) rfl (.stay rfl (unblocked 3) rfl)))⟩
  obtain ⟨ends, -, decides, -⟩ := search_terminates staircase { maxDepth := 1 } ∅ 0
  obtain ⟨-, -, -, bounded⟩ := search_terminates staircase {} (.ofList [2]) 0
  refine ⟨lawful, solvable, decides (.inr (.inr ⟨lawful, solvable⟩)), (ends _).2 rfl,
    fun strategy => ?_⟩
  have finite : ({0, 1} : Set Nat).Finite := Set.toFinite _
  obtain ⟨outcome, answers, le⟩ := bounded (finite.subset passable_staircase) strategy
  have few := Set.ncard_le_ncard passable_staircase finite
  rw [Set.ncard_pair (by decide)] at few
  exact ⟨outcome, answers, le.trans few⟩

end Solver

end SearchSpace
