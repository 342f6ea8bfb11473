import Mathlib.Data.List.Perm.Subperm
import SearchSpace.Proofs.Answers
import SearchSpace.Proofs.BreadthFirst.Shortest
import SearchSpace.Proofs.Termination

/-!
# Breadth-first searches with the same solutions

A breadth-first search expands the states that it comes to sooner than to any solution, and no
others. So if one search has the same solutions as another but fewer routes, because it keeps away
from more keys or prunes more, then it finds the same path and expands no more states.
-/

namespace SearchSpace.BreadthFirst

universe u v

variable {S : Type u} {K : Type v} [BEq K] [Hashable K]

theorem NoLater.antisymm {left right : List Nat} (noLater : NoLater left right)
    (noLater' : NoLater right left) : left = right := by
  rcases noLater with same | sooner
  · exact same
  · rcases noLater' with same | sooner'
    · exact same.symm
    · exact absurd (sooner.trans sooner') (Sooner.irrefl left)

namespace Explains

variable {space : StateSpace S K} {region : Set S} {blocked : Set K} {start : S}
  {history : History S} {frontier : Frontier S K} {first : Arrival S} {rest : List (Arrival S)}
  {positions others : List Nat} {states : List S}

/-- What was expanded was come to sooner than any solution. -/
theorem sooner_of_expanded (explains : Explains space blocked start history frontier)
    (lawful : space.LawfulOn region) (inside : start ∈ region) {arrival : Arrival S}
    (expanded : arrival ∈ history.expanded)
    (solution : space.Solution blocked start positions states) :
    Sooner arrival.positions positions := by
  obtain ⟨other, waiting, noLater⟩ := explains.exists_waiting lawful inside solution
  have sooner := (List.pairwise_append.1 explains.sorted).2.2 arrival expanded other waiting
  rcases noLater with same | sooner'
  · exact same ▸ sooner
  · exact sooner.trans sooner'

/-- The first in the queue, unless it is a goal, was come to sooner than any solution. -/
theorem sooner_of_first (explains : Explains space blocked start history frontier)
    (lawful : space.LawfulOn region) (inside : start ∈ region)
    (queue : history.waiting = first :: rest) (noGoal : space.isGoal first.state = false)
    (solution : space.Solution blocked start positions states) :
    Sooner first.positions positions := by
  rcases explains.first_noLater lawful inside queue solution with same | sooner
  · have walk := (explains.genuine first (History.mem_arrivals_of_waiting queue)).route.walk
    rw [same] at walk
    obtain ⟨last, atEnd, goal⟩ := solution.goal
    rw [solution.walk.unique walk, first.getLast?_toList] at atEnd
    obtain rfl := Option.some.inj atEnd
    rw [noGoal] at goal
    cases goal
  · exact sooner

/-- Once the queue is empty or a goal is first in it, every state that a route comes to sooner than
any solution was expanded. -/
theorem mem_expanded (explains : Explains space blocked start history frontier)
    (lawful : space.LawfulOn region) (inside : start ∈ region)
    (final : ∀ first rest, history.waiting = first :: rest → space.isGoal first.state = true)
    (route : space.Route blocked start positions states) {last : S}
    (atEnd : states.getLast? = some last)
    (sooner : ∀ others states', space.Solution blocked start others states' →
      Sooner positions others) :
    space.key last ∈ history.expanded.map (space.key ·.state) := by
  have notWaiting : ∀ other ∈ history.waiting, ¬NoLater other.positions positions := by
    intro other waiting noLater
    cases queue : history.waiting with
    | nil =>
      rw [queue] at waiting
      cases waiting
    | cons first rest =>
      have genuine := explains.genuine first (History.mem_arrivals_of_waiting queue)
      have solution : space.Solution blocked start first.positions first.trail.toList :=
        ⟨genuine.route, first.state, first.getLast?_toList, final first rest queue⟩
      have sorted := (List.pairwise_append.1 explains.sorted).2.1
      rw [queue] at waiting sorted
      have ahead : NoLater first.positions other.positions := by
        rcases List.mem_cons.1 waiting with rfl | waiting
        · exact .inl rfl
        · exact .inr ((List.pairwise_cons.1 sorted).1 other waiting)
      rcases ahead.trans noLater with same | sooner'
      · exact Sooner.irrefl _ (same ▸ sooner _ _ solution)
      · exact Sooner.irrefl _ (sooner'.trans (sooner _ _ solution))
  rcases explains.exists_noLater lawful inside route atEnd inside explains.root_mem rfl with
    ⟨other, member, same, noLater⟩ | ⟨other, waiting, noLater⟩
  · rcases List.mem_append.1 member with expanded | waiting
    · exact List.mem_map.2 ⟨other, expanded, same.symm⟩
    · exact absurd noLater (notWaiting other waiting)
  · exact absurd noLater (notWaiting other waiting)

end Explains

/-- A search that is not stopped ends with an empty queue or with a goal first in it. -/
theorem Explains.final {space : StateSpace S K} {limits : Limits} {blocked : Set K} {start : S}
    {history : History S} {frontier : Frontier S K} {outcome : Outcome S K}
    (explains : Explains space blocked start history frontier)
    (round : Round space limits frontier (.inl outcome))
    (unstopped : ∀ reason, outcome.verdict ≠ .stopped reason) :
    ∀ first rest, history.waiting = first :: rest → space.isGoal first.state = true := by
  intro first rest queue
  cases round with
  | drained empty =>
    rw [explains.queue_eq, queue] at empty
    cases empty
  | reached front goal =>
    rw [explains.queue_eq, queue] at front
    cases front
    exact goal
  | refused => exact absurd rfl (unstopped _)

/-- A search that its start does not decide ends in a round on a frontier that is explained. -/
theorem Decided.exists_history {space : StateSpace S K} {limits : Limits} {visited : VisitedSet K}
    {initial : S} {outcome : Outcome S K} (decided : Decided space limits visited initial outcome)
    (fresh : space.key initial ∉ visited) (alive : space.isDeadEnd initial = false)
    (noGoal : space.isGoal initial = false) :
    ∃ history last, Explains space visited.toSet initial history last ∧
      Round space limits last (.inl outcome) ∧
      limits.Within outcome.progress.stats.expansions ∧
      outcome.progress.stats.expansions = history.expanded.length := by
  cases decided with
  | visited known => exact absurd known fresh
  | deadEnd _ deadEnd =>
    rw [alive] at deadEnd
    cases deadEnd
  | goal _ _ goal =>
    rw [noGoal] at goal
    cases goal
  | @rounds history last _ _ _ explains within round =>
    refine ⟨history, last, explains, round, ?_, ?_⟩
    · rwa [round.progress_eq]
    · rw [round.progress_eq, explains.stats_eq]

/-- A search that has the same solutions as another, by fewer routes: it keeps away from more keys,
or gives up more states. -/
structure Narrows (narrow wide : StateSpace S K) (more blocked : Set K) (start : S) : Prop where
  key_eq : narrow.key = wide.key
  route : ∀ {positions : List Nat} {states : List S},
    narrow.Route more start positions states → wide.Route blocked start positions states
  solution_iff : ∀ {positions : List Nat} {states : List S},
    narrow.Solution more start positions states ↔ wide.Solution blocked start positions states

namespace Narrows

variable {narrow wide : StateSpace S K} {more blocked : Set K} {start : S}
  {history history' : History S} {frontier frontier' : Frontier S K}

/-- Arrivals of the narrower search that are sooner than any solution are no more than the states
that the wider search expands. -/
theorem length_le (narrows : Narrows narrow wide more blocked start)
    (lawful : wide.Lawful) (explains : Explains narrow more start history frontier)
    (explains' : Explains wide blocked start history' frontier')
    (final : ∀ first rest, history'.waiting = first :: rest → wide.isGoal first.state = true)
    {passed : List (Arrival S)} (sublist : passed.Sublist history.arrivals)
    (sooner : ∀ arrival ∈ passed, ∀ positions states,
      narrow.Solution more start positions states → Sooner arrival.positions positions) :
    passed.length ≤ history'.expanded.length := by
  have distinct : (passed.map (narrow.key ·.state)).Nodup := by
    have distinct := explains.distinct
    rw [History.keys] at distinct
    exact (List.nodup_append.1 distinct).1.sublist (sublist.map _)
  have subset : passed.map (narrow.key ·.state) ⊆ history'.expanded.map (wide.key ·.state) := by
    intro key member
    obtain ⟨arrival, inPassed, rfl⟩ := List.mem_map.1 member
    have genuine := explains.genuine arrival (sublist.subset inPassed)
    rw [narrows.key_eq]
    exact explains'.mem_expanded lawful.lawfulOn_univ (Set.mem_univ _) final
      (narrows.route genuine.route) arrival.getLast?_toList fun others states' solution =>
        sooner arrival inPassed others states' (narrows.solution_iff.2 solution)
  have le := (distinct.subperm subset).length_le
  rwa [List.length_map, List.length_map] at le

/-- The narrower search never expands more states than the wider one does in the end. -/
theorem expanded_length_le (narrows : Narrows narrow wide more blocked start)
    (lawful : narrow.Lawful) (lawful' : wide.Lawful)
    (explains : Explains narrow more start history frontier)
    (explains' : Explains wide blocked start history' frontier')
    (final : ∀ first rest, history'.waiting = first :: rest → wide.isGoal first.state = true) :
    history.expanded.length ≤ history'.expanded.length :=
  narrows.length_le lawful' explains explains' final (List.sublist_append_left _ _)
    fun _ expanded _ _ solution =>
      explains.sooner_of_expanded lawful.lawfulOn_univ (Set.mem_univ _) expanded solution

/-- If it is about to expand another one, it has expanded fewer. -/
theorem expanded_length_lt (narrows : Narrows narrow wide more blocked start)
    (lawful : narrow.Lawful) (lawful' : wide.Lawful)
    (explains : Explains narrow more start history frontier)
    (explains' : Explains wide blocked start history' frontier')
    (final : ∀ first rest, history'.waiting = first :: rest → wide.isGoal first.state = true)
    {first : Arrival S} {rest : List (Arrival S)} (queue : history.waiting = first :: rest)
    (noGoal : narrow.isGoal first.state = false) :
    history.expanded.length < history'.expanded.length := by
  have sublist : (history.expanded ++ [first]).Sublist history.arrivals := by
    rw [History.arrivals, queue]
    exact (List.Sublist.refl _).append (List.sublist_append_left [first] rest)
  have le := narrows.length_le lawful' explains explains' final sublist <| by
    intro arrival passed positions states solution
    rcases List.mem_append.1 passed with expanded | isFirst
    · exact explains.sooner_of_expanded lawful.lawfulOn_univ (Set.mem_univ _) expanded solution
    · obtain rfl := List.mem_singleton.1 isFirst
      exact explains.sooner_of_first lawful.lawfulOn_univ (Set.mem_univ _) queue noGoal solution
  rw [List.length_append, List.length_singleton] at le
  exact le

section Outcome

variable {limits limits' : Limits} {visited visited' : VisitedSet K} {initial : S}
  {outcome outcome' : Outcome S K}

omit [BEq K] [Hashable K] in
/-- The start of the narrower search is neither visited nor a dead end for the wider one. -/
theorem start_of_narrow (narrows : Narrows narrow wide more blocked initial)
    (alive : narrow.isDeadEnd initial = false) (fresh : narrow.key initial ∉ more) :
    wide.key initial ∉ blocked ∧ wide.isDeadEnd initial = false := by
  have route := narrows.route (.stay alive fresh)
  exact ⟨route.start_fresh, route.start_alive⟩

/-- Both searches, if they are not stopped, decide the same. -/
theorem verdict_eq (narrows : Narrows narrow wide visited'.toSet visited.toSet initial)
    (lawful : narrow.Lawful) (lawful' : wide.Lawful)
    (decided : Decided narrow limits visited' initial outcome)
    (decided' : Decided wide limits' visited initial outcome')
    (unstopped : ∀ reason, outcome.verdict ≠ .stopped reason)
    (unstopped' : ∀ reason, outcome'.verdict ≠ .stopped reason) :
    outcome.verdict = outcome'.verdict := by
  have everywhere := lawful.lawfulOn_univ
  have everywhere' := lawful'.lawfulOn_univ
  cases verdict : outcome.verdict with
  | stopped reason => exact absurd verdict (unstopped reason)
  | exhausted =>
    have unsolvable := not_solvable_of_exhausted everywhere (Set.mem_univ _) decided verdict
    cases verdict' : outcome'.verdict with
    | stopped reason => exact absurd verdict' (unstopped' reason)
    | exhausted => rfl
    | found states =>
      obtain ⟨positions, solution, _⟩ :=
        exists_solution_of_found everywhere' (Set.mem_univ _) decided' verdict'
      exact absurd ⟨positions, states, narrows.solution_iff.2 solution⟩ unsolvable
  | found states =>
    obtain ⟨positions, solution, least⟩ :=
      exists_solution_of_found everywhere (Set.mem_univ _) decided verdict
    cases verdict' : outcome'.verdict with
    | stopped reason => exact absurd verdict' (unstopped' reason)
    | exhausted =>
      have unsolvable := not_solvable_of_exhausted everywhere' (Set.mem_univ _) decided' verdict'
      exact absurd ⟨positions, states, narrows.solution_iff.1 solution⟩ unsolvable
    | found states' =>
      obtain ⟨positions', solution', least'⟩ :=
        exists_solution_of_found everywhere' (Set.mem_univ _) decided' verdict'
      -- Each of the two solutions is no later than the other.
      have same : positions = positions' :=
        (least _ _ (narrows.solution_iff.2 solution')).antisymm
          (least' _ _ (narrows.solution_iff.1 solution))
      rw [← same] at solution'
      rw [(narrows.solution_iff.1 solution).walk.unique solution'.walk]

/-- The narrower search expands no more states. -/
theorem expansions_le (narrows : Narrows narrow wide visited'.toSet visited.toSet initial)
    (lawful : narrow.Lawful) (lawful' : wide.Lawful)
    (decided : Decided narrow limits visited' initial outcome)
    (decided' : Decided wide limits' visited initial outcome')
    (unstopped' : ∀ reason, outcome'.verdict ≠ .stopped reason) :
    outcome.progress.stats.expansions ≤ outcome'.progress.stats.expansions := by
  cases decided with
  | visited => exact Nat.zero_le _
  | deadEnd => exact Nat.zero_le _
  | goal => exact Nat.zero_le _
  | @rounds history last _ fresh alive explains _ round =>
    obtain ⟨fresh', alive'⟩ := narrows.start_of_narrow alive fresh
    rw [round.progress_eq, explains.stats_eq]
    by_cases goal : wide.isGoal initial = true
    · -- The start is a solution, and nothing is sooner.
      have solution := narrows.solution_iff.2 (.stay alive' fresh' goal)
      cases expanded : history.expanded with
      | nil => exact Nat.zero_le _
      | cons arrival rest =>
        have sooner := explains.sooner_of_expanded lawful.lawfulOn_univ (Set.mem_univ _)
          (expanded ▸ List.mem_cons_self) solution
        exact absurd sooner List.not_shortlex_nil_right
    · obtain ⟨history', last', explains', round', _, count⟩ :=
        decided'.exists_history fresh' alive' (by simpa using goal)
      rw [count]
      exact narrows.expanded_length_le lawful lawful' explains explains'
        (explains'.final round' unstopped')

/-- Under the same limits the narrower search answers if the wider one does. -/
theorem exists_outcome [LawfulBEq K]
    (narrows : Narrows narrow wide visited'.toSet visited.toSet initial)
    (lawful : narrow.Lawful) (lawful' : wide.Lawful)
    (decided' : Decided wide limits visited initial outcome')
    (unstopped' : ∀ reason, outcome'.verdict ≠ .stopped reason) :
    ∃ rounds outcome, search narrow limits rounds visited' initial = some outcome ∧
      ∀ reason, outcome.verdict ≠ .stopped reason := by
  rcases search_cases narrow visited' initial with
    ⟨outcome, atOnce, _, unstopped⟩ | ⟨⟨fresh, alive, noGoal⟩, inRounds⟩
  · exact ⟨0, outcome, atOnce limits 0, unstopped⟩
  obtain ⟨fresh', alive'⟩ := narrows.start_of_narrow alive fresh
  have noGoal' : wide.isGoal initial = false := by
    rw [← Bool.not_eq_true]
    intro goal
    have solution := narrows.solution_iff.2 (.stay alive' fresh' goal)
    rw [solution.isGoal_of_stay] at noGoal
    cases noGoal
  obtain ⟨history', last', explains', round', within', count'⟩ :=
    decided'.exists_history fresh' alive' noGoal'
  have final := explains'.final round' unstopped'
  refine ⟨history'.expanded.length + 1, ?_⟩
  cases answered : search narrow limits (history'.expanded.length + 1) visited' initial with
  | none =>
    -- So many rounds expand more states than the wider search has.
    rw [inRounds] at answered
    obtain ⟨later, last, explains, more⟩ :=
      (Explains.initial fresh alive).exists_of_undecided answered
    have le := narrows.expanded_length_le lawful lawful' explains explains' final
    omega
  | some outcome =>
    refine ⟨outcome, rfl, fun reason stopped => ?_⟩
    obtain ⟨history, last, explains, round, _, count⟩ :=
      (decided_search answered).exists_history fresh alive noGoal
    cases round with
    | drained => cases stopped
    | reached => cases stopped
    | refused front noGoal overspent =>
      obtain ⟨first, rest, queue, rfl, _⟩ := explains.exists_first front
      have less := narrows.expanded_length_lt lawful lawful' explains explains' final queue noGoal
      obtain ⟨budget, spent⟩ := Limits.spent_eq_some_iff.1 overspent
      have enough := (Limits.within_iff budget).1 within'
      have same : last.progress.stats.expansions = history.expanded.length := count
      omega

end Outcome

end Narrows

end SearchSpace.BreadthFirst
