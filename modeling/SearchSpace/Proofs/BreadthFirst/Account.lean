import SearchSpace.Proofs.Account
import SearchSpace.Proofs.Answers
import SearchSpace.Proofs.BreadthFirst.Round

/-!
# The account of a breadth-first search

A round expands the state that has waited longest. Those of its successors that have new keys are
marked, and wait or are given up at once. So the account is in order before and after each round,
with the states in the queue as those that wait.
-/

namespace SearchSpace.BreadthFirst

universe u v

variable {S : Type u} {K : Type v} [BEq K] [Hashable K]

/-- The successors that are given up: the dead ends that were not visited before, one of each
key. -/
def rejected (space : StateSpace S K) : List S → Progress K → List S
  | [], _ => []
  | next :: rest, progress =>
    if space.key next ∈ progress.visited then rejected space rest progress
    else if space.isDeadEnd next then
      next :: rejected space rest (progress.mark (space.key next)).countPruned
    else rejected space rest (progress.mark (space.key next))

namespace Frontier

/-- What a round does that goes on: it expands the first state in the queue, and gives up dead ends
among its successors. -/
def workTowards (space : StateSpace S K) (frontier : Frontier S K) :
    Outcome S K ⊕ Frontier S K → Record S
  | .inl _ => .empty
  | .inr _ =>
    match frontier.queue.toList with
    | [] => .empty
    | trail :: _ => .expand trail.state ++
        .prune (rejected space (space.successors trail.state) frontier.progress.countExpanded)

/-- What the next round does. -/
def work (space : StateSpace S K) (limits : Limits) (frontier : Frontier S K) : Record S :=
  frontier.workTowards space (step space limits frontier)

/-- The states that wait, in order. -/
def waiting (frontier : Frontier S K) : List S := frontier.queue.toList.map Trail.state

/-- The record of a search and its frontier agree: no dead end waits, and all states on the way to
those that wait were expanded. -/
structure Accounted (space : StateSpace S K) (visited : VisitedSet K) (initial : S)
    (record : Record S) (frontier : Frontier S K) : Prop where
  account : Account space visited initial record frontier.waiting frontier.progress
  alive : ∀ trail ∈ frontier.queue.toList, space.isDeadEnd trail.state = false
  passed : ∀ trail ∈ frontier.queue.toList, ∀ state ∈ trail.earlier, state ∈ record.expanded

end Frontier

/-- How a search begins: it may be decided at once, after the start has been given up or without
anything done. -/
def opening (space : StateSpace S K) (visited : VisitedSet K) (initial : S) :
    Record S × (Outcome S K ⊕ Frontier S K) :=
  if space.key initial ∈ visited then (.empty, .inl ⟨.exhausted, { visited }⟩)
  else if space.isDeadEnd initial then
    (.prune [initial], .inl ⟨.exhausted, ({ visited } : Progress K).countPruned⟩)
  else if space.isGoal initial then (.empty, .inl ⟨.found [initial], { visited }⟩)
  else (.empty, .inr (start space visited initial))

variable {space : StateSpace S K} {limits : Limits} {visited : VisitedSet K} {initial : S}
  {record first : Record S} {frontier next : Frontier S K} {outcome : Outcome S K} {rounds : Nat}
  {begun : Outcome S K ⊕ Frontier S K}

/-- The trails queued lead to successors that are no dead ends. -/
theorem newTrails_spec (space : StateSpace S K) (trail : Trail S) (successors : List S)
    (progress : Progress K) :
    ∀ queued ∈ (newTrails space trail successors progress).1,
      space.isDeadEnd queued.state = false ∧ queued.earlier = trail.state :: trail.earlier := by
  induction successors generalizing progress with
  | nil => simp [newTrails]
  | cons next rest ih =>
    rw [newTrails]
    split
    · exact ih progress
    split
    · exact ih _
    · next alive =>
      have alive : space.isDeadEnd next = false := by simpa using alive
      exact List.forall_mem_cons.2 ⟨⟨alive, rfl⟩, ih _⟩

/-- Going through successors keeps the account: those queued wait, and the others are given up. -/
theorem account_newTrails [LawfulBEq K] {waiting : List S} {trail : Trail S} {successors : List S}
    {progress : Progress K} (account : Account space visited initial record waiting progress)
    (approached : ∀ next ∈ successors, space.Approaches visited.toSet initial next) :
    Account space visited initial (record ++ .prune (rejected space successors progress))
      (waiting ++ (newTrails space trail successors progress).1.map Trail.state)
      (newTrails space trail successors progress).2 := by
  induction successors generalizing record waiting progress with
  | nil =>
    show Account space visited initial (record ++ .empty) (waiting ++ []) progress
    rwa [Record.append_empty, List.append_nil]
  | cons next rest ih =>
    have ⟨first, others⟩ := List.forall_mem_cons.1 approached
    rw [newTrails, rejected]
    split
    · exact ih account others
    next fresh =>
    have marked := account.wait first fresh
    split
    · have onward := ih marked.prune others
      rwa [Record.append_assoc] at onward
    · have onward := ih marked others
      rwa [List.append_assoc] at onward

namespace Frontier.Accounted

variable [LawfulBEq K]

theorem start (fresh : space.key initial ∉ visited) (alive : space.isDeadEnd initial = false) :
    Accounted space visited initial .empty (BreadthFirst.start space visited initial) where
  account := (Account.nil space visited initial).wait .start fresh
  alive := by simpa [BreadthFirst.start, Queue.toList_ofList] using alive
  passed := by simp [BreadthFirst.start, Queue.toList_ofList]

/-- Every round keeps the account. -/
theorem onward (accounted : frontier.Accounted space visited initial record)
    (stepped : step space limits frontier = .inr next) :
    next.Accounted space visited initial (record ++ frontier.work space limits) := by
  have round := round_step space limits frontier
  rw [stepped] at round
  obtain ⟨account, alive, passed⟩ := accounted
  cases round with
  | @expanded trail rest _ front noGoal _ queue progress =>
    have work : frontier.work space limits = .expand trail.state ++
        .prune (rejected space (space.successors trail.state) frontier.progress.countExpanded) := by
      rw [Frontier.work, stepped, workTowards, front]
    rw [work, ← Record.append_assoc]
    rw [front] at alive passed
    rw [waiting, front, List.map_cons] at account
    have waits : trail.state ∈ record.states ++ trail.state :: rest.map Trail.state :=
      List.mem_append_right _ List.mem_cons_self
    have approached : ∀ next ∈ space.successors trail.state,
        space.Approaches visited.toSet initial next := fun next successor =>
      .step (account.approached _ waits) (alive trail List.mem_cons_self) noGoal
        (account.unblocked _ waits) successor
    have sorted := newTrails_spec space trail (space.successors trail.state)
      frontier.progress.countExpanded
    refine ⟨?_, ?_, ?_⟩
    · rw [waiting, queue, List.map_append, progress]
      exact account_newTrails account.expand approached
    · rw [queue, List.forall_mem_append]
      exact ⟨fun trail member => alive trail (List.mem_cons_of_mem _ member),
        fun queued member => (sorted queued member).1⟩
    · rw [queue, List.forall_mem_append]
      refine ⟨fun older member state earlier => ?_, fun queued member state earlier => ?_⟩
      · have before := passed older (List.mem_cons_of_mem _ member) state earlier
        simp [Record.expand, before]
      · rw [(sorted queued member).2] at earlier
        rcases List.mem_cons.1 earlier with rfl | earlier
        · simp [Record.expand]
        · have before := passed trail List.mem_cons_self state earlier
          simp [Record.expand, before]

omit [LawfulBEq K] in
/-- Where the search ends its account is in order, and says how it ended. -/
theorem ended (accounted : frontier.Accounted space visited initial record)
    (ended : step space limits frontier = .inl outcome) :
    ∃ waiting, Account space visited initial record waiting outcome.progress ∧
      Ended space record outcome.visited .bfs waiting outcome.verdict := by
  have round := round_step space limits frontier
  rw [ended] at round
  obtain ⟨account, -, passed⟩ := accounted
  rw [waiting] at account
  cases round with
  | drained empty =>
    rw [empty] at account
    exact ⟨[], account, .exhausted⟩
  | @reached trail rest front goal =>
    rw [front] at account passed
    refine ⟨_, account, ?_⟩
    rw [Trail.toList, List.reverse_cons]
    exact .dequeued fun state member =>
      passed trail List.mem_cons_self state (List.mem_reverse.1 member)
  | refused front noGoal overspent =>
    rw [front] at account
    obtain ⟨-, le⟩ := Limits.spent_eq_some_iff.1 overspent
    have expansions : frontier.progress.stats.expansions = record.expanded.length :=
      congrArg Stats.expansions account.stats_eq
    rw [expansions] at le
    exact ⟨_, account, .refused le⟩

end Frontier.Accounted

/-- A search does what it begins with. -/
theorem search_eq_opening (space : StateSpace S K) (limits : Limits) (rounds : Nat)
    (visited : VisitedSet K) (initial : S) : search space limits rounds visited initial =
      match (opening space visited initial).2 with
      | .inl outcome => some outcome
      | .inr frontier => run space limits rounds frontier := by
  unfold search opening
  split
  · rfl
  split
  · rfl
  split <;> rfl

theorem exists_recorded_run (decided : run space limits rounds frontier = some outcome)
    (recorded : Recorded (step space limits) (Frontier.work space limits) first begun record
      (.inr frontier)) :
    ∃ record, Recorded (step space limits) (Frontier.work space limits) first begun record
      (.inl outcome) := by
  induction rounds generalizing frontier record with
  | zero => cases decided
  | succ rounds ih =>
    rcases run_succ_cases decided with ⟨stepped, _⟩ | ⟨next, stepped, _, decided⟩
    · exact ⟨_, recorded.step stepped⟩
    · exact ih decided (recorded.step stepped)

/-- The search is recorded. -/
theorem exists_recorded (answered : search space limits rounds visited initial = some outcome) :
    ∃ record, Recorded (step space limits) (Frontier.work space limits)
      (opening space visited initial).1 (opening space visited initial).2 record
      (.inl outcome) := by
  rw [search_eq_opening] at answered
  cases begun : (opening space visited initial).2 with
  | inl first =>
    rw [begun] at answered
    cases answered
    exact ⟨_, .start⟩
  | inr frontier =>
    rw [begun] at answered
    exact exists_recorded_run answered .start

/-- A search from a state that is neither visited, nor a dead end, nor a goal is accounted for. -/
theorem exists_account [LawfulBEq K] (fresh : space.key initial ∉ visited)
    (alive : space.isDeadEnd initial = false) (noGoal : space.isGoal initial = false)
    (recorded : Recorded (step space limits) (Frontier.work space limits)
      (opening space visited initial).1 (opening space visited initial).2 record
      (.inl outcome)) :
    ∃ waiting, Account space visited initial record waiting outcome.progress ∧
      Ended space record outcome.visited .bfs waiting outcome.verdict := by
  have begun : opening space visited initial =
      (.empty, .inr (BreadthFirst.start space visited initial)) := by
    simp [opening, fresh, alive, noGoal]
  rw [begun] at recorded
  rcases recorded.exists_last (P := Frontier.Accounted space visited initial)
      (by rintro _ ⟨⟩; exact .start fresh alive) (fun accounted stepped => accounted.onward stepped)
    with ⟨impossible, -⟩ | ⟨before, last, accounted, ended, rfl⟩
  · cases impossible
  · have work : last.work space limits = .empty := by
      rw [Frontier.work, ended]
      rfl
    rw [work, Record.append_empty]
    exact accounted.ended ended

end SearchSpace.BreadthFirst
