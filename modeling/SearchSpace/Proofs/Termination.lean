import SearchSpace.Proofs.Answers
import SearchSpace.Proofs.BreadthFirst.History
import SearchSpace.Proofs.DepthFirst.Exploration

/-!
# Searches that decide

Without a budget a breadth-first search decides once it has been given more rounds than there are
keys to expand. A depth-first search always ends, and without a budget it is stopped only if it may
not go down as far as the space goes.
-/

namespace SearchSpace

universe u v

variable {S : Type u} {K : Type v} [BEq K] [Hashable K] {space : StateSpace S K} {limits : Limits}

theorem Limits.spent_of_unbounded (unbounded : limits.maxExpansions = none) (count : Nat) :
    limits.spent count = none := by
  rw [spent, unbounded]
  rfl

namespace BreadthFirst

variable {blocked : Set K} {visited : VisitedSet K} {start initial : S} {history : History S}
  {frontier : Frontier S K} {rounds : Nat}

/-- Each round that does not decide the search expands one more arrival. -/
theorem Explains.exists_of_undecided [LawfulBEq K]
    (explains : Explains space blocked start history frontier)
    (undecided : run space limits rounds frontier = none) :
    ∃ later last, Explains space blocked start later last ∧
      later.expanded.length = history.expanded.length + rounds := by
  induction rounds generalizing history frontier with
  | zero => exact ⟨history, frontier, explains, rfl⟩
  | succ rounds ih =>
    have round := round_step space limits frontier
    rw [run] at undecided
    cases stepped : step space limits frontier with
    | inl outcome =>
      rw [stepped] at undecided
      cases undecided
    | inr next =>
      rw [stepped] at undecided round
      obtain ⟨middle, explains', more⟩ := explains.round round
      obtain ⟨later, last, explains'', most⟩ := ih explains' undecided
      refine ⟨later, last, explains'', ?_⟩
      omega

/-- Only a start that is neither visited nor a dead end takes rounds to decide. -/
theorem exists_outcome_of_run
    (decides : space.key initial ∉ visited → space.isDeadEnd initial = false →
      run space limits rounds (BreadthFirst.start space visited initial) ≠ none) :
    ∃ outcome, search space limits rounds visited initial = some outcome := by
  rcases search_cases space visited initial with
    ⟨outcome, atOnce, -⟩ | ⟨⟨fresh, alive, -⟩, inRounds⟩
  · exact ⟨outcome, atOnce limits rounds⟩
  · rw [inRounds]
    exact Option.ne_none_iff_exists'.1 (decides fresh alive)

/-- More rounds than any history has expansions decide the search. -/
theorem exists_outcome_of_length_le [LawfulBEq K] {bound : Nat}
    (few : ∀ {history : History S} {frontier : Frontier S K},
      Explains space visited.toSet initial history frontier → history.expanded.length ≤ bound)
    (enough : bound < rounds) :
    ∃ outcome, search space limits rounds visited initial = some outcome := by
  refine exists_outcome_of_run fun fresh alive undecided => ?_
  have explains : Explains space visited.toSet initial (.initial initial) _ := .initial fresh alive
  obtain ⟨later, last, explains', length_eq⟩ := explains.exists_of_undecided undecided
  have le := few explains'
  omega

theorem Explains.nodup_expanded (explains : Explains space blocked start history frontier) :
    ((history.expanded.map Arrival.state).map space.key).Nodup := by
  have distinct := explains.distinct
  rw [History.keys, History.arrivals, List.map_append] at distinct
  rw [List.map_map]
  exact (List.nodup_append.1 (List.nodup_append.1 distinct).1).1

/-- More rounds than there are keys to expand decide the search. -/
theorem exists_outcome [LawfulBEq K] {region : Set S} {bound : Nat}
    (closed : ∀ {state next : S}, state ∈ region → next ∈ space.successors state → next ∈ region)
    (bounded : ∀ {states : List S}, (∀ state ∈ states, state ∈ region) →
      (states.map space.key).Nodup → states.length ≤ bound)
    (inside : initial ∈ region) (enough : bound < rounds) :
    ∃ outcome, search space limits rounds visited initial = some outcome := by
  refine exists_outcome_of_length_le (fun {history _} explains => ?_) enough
  have few := bounded (fun state member => by
    obtain ⟨arrival, expanded, rfl⟩ := List.mem_map.1 member
    exact explains.state_mem_region closed inside (List.mem_append_left _ expanded))
    explains.nodup_expanded
  rwa [List.length_map] at few

/-- Rounds that do not decide the search expand one state each, within the budget. -/
theorem within_of_undecided (within : limits.Within frontier.progress.stats.expansions)
    (undecided : run space limits rounds frontier = none) :
    limits.Within (frontier.progress.stats.expansions + rounds) := by
  induction rounds generalizing frontier with
  | zero => exact within
  | succ rounds ih =>
    have round := round_step space limits frontier
    rw [run] at undecided
    cases stepped : step space limits frontier with
    | inl outcome =>
      rw [stepped] at undecided
      cases undecided
    | inr next =>
      rw [stepped] at undecided round
      have later := ih round.within undecided
      rwa [round.undecided.2, Nat.add_right_comm, Nat.add_assoc] at later

/-- One more round than there are expansions in the budget decides the search. -/
theorem exists_outcome_of_budget {limit : UInt64} (budget : limits.maxExpansions = some limit)
    (enough : limit.toNat < rounds) :
    ∃ outcome, search space limits rounds visited initial = some outcome := by
  refine exists_outcome_of_run fun _ _ undecided => ?_
  have within := within_of_undecided limits.within_zero undecided
  have le := (Limits.within_iff budget).1 within
  rw [show (BreadthFirst.start space visited initial).progress.stats.expansions = 0 from rfl] at le
  omega

theorem Decided.not_stopped {outcome : Outcome S K}
    (decided : Decided space limits visited initial outcome)
    (unbounded : limits.maxExpansions = none) (reason : LimitExceeded) :
    outcome.verdict ≠ .stopped reason := by
  intro stopped
  cases decided with
  | visited => cases stopped
  | deadEnd => cases stopped
  | goal => cases stopped
  | rounds _ _ _ _ round =>
    cases round with
    | drained => cases stopped
    | reached => cases stopped
    | refused _ _ overspent =>
      rw [Limits.spent_of_unbounded unbounded] at overspent
      cases overspent

end BreadthFirst

namespace DepthFirst

variable {remaining : Nat} {task : Task S} {entered : List S} {before after : Progress K}
  {verdict : Verdict S} {visited : VisitedSet K} {initial : S}

/-- A search that may go down further than the space goes is not stopped. -/
theorem Explores.not_stopped {height : S → Nat}
    (descends : ∀ {state next : S}, next ∈ space.successors state → height next < height state)
    (unbounded : limits.maxExpansions = none)
    (explores : Explores space limits remaining task entered before verdict after)
    (shallow : ∀ state ∈ task.states, height state < remaining) (reason : LimitExceeded) :
    verdict ≠ .stopped reason := by
  intro stopped
  induction explores with
  | tooDeep => exact absurd (shallow _ List.mem_cons_self) (Nat.not_lt_zero _)
  | deadEnd => cases stopped
  | goal => cases stopped
  | spent _ _ overspent =>
    rw [Limits.spent_of_unbounded unbounded] at overspent
    cases overspent
  | expanded _ _ _ _ ih =>
    refine ih (fun next successor => ?_) (Verdict.behind_eq_stopped.1 stopped)
    have above := shallow _ List.mem_cons_self
    have lower := descends successor
    omega
  | done => cases stopped
  | seen _ _ ih =>
    exact ih (fun state member => shallow state (List.mem_cons_of_mem _ member)) stopped
  | failed _ _ _ _ ih =>
    exact ih (fun state member => shallow state (List.mem_cons_of_mem _ member)) stopped
  | decided _ _ _ ih =>
    refine ih (fun state member => ?_) stopped
    obtain rfl := List.mem_singleton.1 member
    exact shallow _ List.mem_cons_self

theorem search_not_stopped {height : S → Nat}
    (descends : ∀ {state next : S}, next ∈ space.successors state → height next < height state)
    (unbounded : limits.maxExpansions = none) (shallow : height initial ≤ limits.maxDepth.toNat)
    (reason : LimitExceeded) :
    (search space limits visited initial).verdict ≠ .stopped reason := by
  rcases exists_explores_search space limits visited initial with
    ⟨-, answer⟩ | ⟨-, entered, explores⟩
  · rw [answer]
    intro stopped
    cases stopped
  · refine explores.not_stopped descends unbounded (fun state member => ?_) reason
    obtain rfl := List.mem_singleton.1 member
    exact Nat.lt_succ_of_le shallow

end DepthFirst

end SearchSpace
