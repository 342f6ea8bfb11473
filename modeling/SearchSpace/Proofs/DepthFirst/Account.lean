import SearchSpace.Proofs.Account
import SearchSpace.Proofs.DepthFirst.Stack

/-!
# The account of a depth-first search

Each step either changes nothing in what has been marked and counted, or it marks one new key and
counts one state, as expanded or as a dead end. A dead end is marked only when it is left, so the
account is of the progress once that is done. The states on the stack were all expanded.
-/

namespace SearchSpace.DepthFirst

universe u v

variable {S : Type u} {K : Type v} [BEq K] [Hashable K]

namespace Machine

/-- What a step does, as is seen from where it leads: it expands the state that is examined, or
gives it up. -/
def workTowards : Machine S K → Outcome S K ⊕ Machine S K → Record S
  | .enter state _ _, .inr (.browse _ _ _) => .expand state
  | .enter state _ _, .inr (.leave _ _ _) => .prune [state]
  | _, _ => .empty

/-- What the next step does. -/
def work (space : StateSpace S K) (limits : Limits) (machine : Machine S K) : Record S :=
  machine.workTowards (step space limits machine)

/-- The frames of the states that were expanded and not left yet. -/
def opened : Machine S K → List (Frame S)
  | .enter _ frames _ => frames
  | .browse frame frames _ => frame :: frames
  | .leave _ frames _ => frames

/-- The progress once a state that led nowhere is marked, as it is unless the search started
there. -/
def settled (space : StateSpace S K) : Machine S K → Progress K
  | .enter _ _ progress => progress
  | .browse _ _ progress => progress
  | .leave _ [] progress => progress
  | .leave state (_ :: _) progress => progress.mark (space.key state)

/-- A state that is examined has not been met before. It may be a dead end only if it is not the
start. -/
def Examines (space : StateSpace S K) (visited : VisitedSet K) (initial : S) : Machine S K → Prop
  | .enter state frames progress => space.key state ∉ progress.visited ∧
      space.Approaches visited.toSet initial state ∧
      (frames = [] → space.isDeadEnd state = false)
  | .browse _ _ _ => True
  | .leave _ _ _ => True

/-- The record of a search and the machine at its place agree. -/
structure Accounted (space : StateSpace S K) (visited : VisitedSet K) (initial : S)
    (record : Record S) (machine : Machine S K) : Prop where
  account : Account space visited initial record [] (machine.settled space)
  examines : machine.Examines space visited initial
  opened : ∀ frame ∈ machine.opened, frame.state ∈ record.expanded ∧
    ∀ next ∈ frame.untried, space.Approaches visited.toSet initial next
  height : machine.opened.length ≤ record.expanded.length

end Machine

variable {space : StateSpace S K} {limits : Limits} {visited : VisitedSet K} {initial : S}
  {record : Record S} {machine next : Machine S K} {outcome : Outcome S K}

/-- The states on the way down, in order. -/
theorem passing_eq (frames : List (Frame S)) (states : List S) :
    passing frames states = (frames.map Frame.state).reverse ++ states := by
  induction frames generalizing states with
  | nil => rfl
  | cons frame frames ih =>
    rw [passing, ih, List.map_cons, List.reverse_cons, List.append_assoc, List.singleton_append]

/-- Looking at successors does nothing by itself. -/
theorem work_browse (space : StateSpace S K) (limits : Limits) (frame : Frame S)
    (frames : List (Frame S)) (progress : Progress K) :
    (Machine.browse frame frames progress).work space limits = .empty := rfl

/-- A step that ends the search does nothing else. -/
theorem work_of_ended (ended : step space limits machine = .inl outcome) :
    machine.work space limits = .empty := by
  rw [Machine.work, ended]
  cases machine <;> rfl

namespace Machine.Accounted

theorem start (fresh : space.key initial ∉ visited) (alive : space.isDeadEnd initial = false) :
    Accounted space visited initial .empty (.enter initial [] { visited }) where
  account := .nil space visited initial
  examines := ⟨fresh, .start, fun _ => alive⟩
  opened := by simp [Machine.opened]
  height := Nat.zero_le _

variable [LawfulBEq K]

/-- Every step keeps the account. -/
theorem onward (accounted : machine.Accounted space visited initial record)
    (stepped : step space limits machine = .inr next) :
    next.Accounted space visited initial (record ++ machine.work space limits) := by
  have turn := turn_step space limits machine
  rw [stepped] at turn
  obtain ⟨account, examines, opened, height⟩ := accounted
  cases turn with
  | @deadEnd state frames progress _ deadEnd =>
    obtain ⟨fresh, approached, started⟩ := examines
    have work : (Machine.enter state frames progress).work space limits = .prune [state] := by
      rw [Machine.work, stepped]
      rfl
    rw [work]
    cases frames with
    | nil =>
      rw [started rfl] at deadEnd
      cases deadEnd
    | cons frame frames =>
      rw [← List.append_nil record.expanded] at opened height
      exact ⟨(account.wait approached fresh).prune, trivial, opened, height⟩
  | @expanded state frames progress _ alive noGoal =>
    obtain ⟨fresh, approached, -⟩ := examines
    have work : (Machine.enter state frames progress).work space limits = .expand state := by
      rw [Machine.work, stepped]
      rfl
    rw [work]
    refine ⟨(account.wait approached fresh).expand, trivial, ?_, ?_⟩
    · have unblocked : space.key state ∉ visited := fun known => fresh (account.mem_visited known)
      have approaches : ∀ next ∈ space.successors state,
          space.Approaches visited.toSet initial next :=
        fun next successor => .step approached alive noGoal unblocked successor
      refine List.forall_mem_cons.2 ⟨⟨by simp [Record.expand], approaches⟩, fun frame member => ?_⟩
      exact (opened frame member).imp_left (List.mem_append_left _)
    · simpa [Record.expand, Machine.opened] using height
  | @done state frames progress =>
    rw [work_browse, Record.append_empty]
    obtain ⟨inside, others⟩ := List.forall_mem_cons.1 opened
    refine ⟨?_, trivial, others, Nat.le_of_succ_le height⟩
    cases frames with
    | nil => exact account
    | cons frame frames =>
      -- The state was marked when it was expanded, so that marking it once more changes nothing.
      have met := List.mem_append_left [] (Record.mem_states_of_expanded inside.1)
      exact account.again (account.key_mem_visited met)
  | @seen state next untried frames progress =>
    rw [work_browse, Record.append_empty]
    obtain ⟨inside, others⟩ := List.forall_mem_cons.1 opened
    obtain ⟨_, untried⟩ := List.forall_mem_cons.1 inside.2
    exact ⟨account, trivial, List.forall_mem_cons.2 ⟨⟨inside.1, untried⟩, others⟩, height⟩
  | @enters state next untried frames progress fresh =>
    rw [work_browse, Record.append_empty]
    obtain ⟨inside, others⟩ := List.forall_mem_cons.1 opened
    obtain ⟨approached, untried⟩ := List.forall_mem_cons.1 inside.2
    refine ⟨account, ⟨fresh, approached, fun bottom => ?_⟩,
      List.forall_mem_cons.2 ⟨⟨inside.1, untried⟩, others⟩, height⟩
    cases bottom
  | returns =>
    rw [show Machine.work space limits _ = .empty from rfl, Record.append_empty]
    exact ⟨account, trivial, opened, height⟩

/-- Where the search ends its account is in order, and says how it ended. -/
theorem ended (accounted : machine.Accounted space visited initial record)
    (ended : step space limits machine = .inl outcome) :
    ∃ waiting, Account space visited initial record waiting outcome.progress ∧
      Ended space record outcome.visited .dfs waiting outcome.verdict := by
  have turn := turn_step space limits machine
  rw [ended] at turn
  obtain ⟨account, examines, opened, height⟩ := accounted
  cases turn with
  | tooDeep deep => exact ⟨[], account, .tooDeep (Nat.lt_of_lt_of_le deep height)⟩
  | @goal state frames progress =>
    obtain ⟨fresh, -, -⟩ := examines
    refine ⟨[], account, ?_⟩
    rw [passing_eq]
    refine .unmarked (fun passed member => ?_) fresh
    obtain ⟨frame, onStack, rfl⟩ := List.mem_map.1 (List.mem_reverse.1 member)
    exact (opened frame onStack).1
  | @spent state frames progress limit _ _ _ overspent =>
    obtain ⟨fresh, approached, -⟩ := examines
    obtain ⟨-, le⟩ := Limits.spent_eq_some_iff.1 overspent
    have expansions : progress.stats.expansions = record.expanded.length :=
      congrArg Stats.expansions account.stats_eq
    rw [expansions] at le
    exact ⟨[state], account.wait approached fresh, .refused le⟩
  | exhausted => exact ⟨[], account, .exhausted⟩

end Machine.Accounted

/-- The search is recorded. -/
theorem exists_recorded (space : StateSpace S K) (limits : Limits) (visited : VisitedSet K)
    (initial : S) : ∃ record, Recorded (step space limits) (Machine.work space limits) .empty
      (start space visited initial) record (.inl (search space limits visited initial)) := by
  have runs := runs_start space limits visited initial
  generalize Sum.inl (search space limits visited initial) = config at runs
  induction runs with
  | refl => exact ⟨_, .start⟩
  | tail _ next ih =>
    obtain ⟨record, recorded⟩ := ih
    obtain ⟨machine, rfl, stepped⟩ := next
    exact ⟨_, recorded.step stepped⟩

/-- A search from a state that is neither visited nor a dead end is accounted for. -/
theorem exists_account [LawfulBEq K] (fresh : space.key initial ∉ visited)
    (alive : space.isDeadEnd initial = false)
    (recorded : Recorded (step space limits) (Machine.work space limits) .empty
      (DepthFirst.start space visited initial) record (.inl outcome)) :
    ∃ waiting, Account space visited initial record waiting outcome.progress ∧
      Ended space record outcome.visited .dfs waiting outcome.verdict := by
  have begun : DepthFirst.start space visited initial = .inr (.enter initial [] { visited }) :=
    if_neg fresh
  rw [begun] at recorded
  rcases recorded.exists_last (P := Machine.Accounted space visited initial)
      (by rintro _ ⟨⟩; exact .start fresh alive) (fun accounted stepped => accounted.onward stepped)
    with ⟨impossible, -⟩ | ⟨before, last, accounted, ended, rfl⟩
  · cases impossible
  · rw [work_of_ended ended, Record.append_empty]
    exact accounted.ended ended

end SearchSpace.DepthFirst
