import Mathlib.Logic.Relation
import SearchSpace.Proofs.DepthFirst.Exploration

/-!
# Depth-first search step by step

The search with its stack laid open: a frame for each state on the way down, with the successors
that are still to be tried. Nothing in a step counts down. That the steps come to an end, and to the
answer of the recursion, is due to the depth limit alone, whatever the space and its keys are like.
-/

namespace SearchSpace.DepthFirst

universe u v

/-- A state on the way down, and those of its successors that are still to be tried. -/
structure Frame (S : Type u) where
  state : S
  untried : List S

variable {S : Type u} {K : Type v}

/-- The states on the way down, the latest frame first, in front of others. -/
def passing : List (Frame S) → List S → List S
  | [], states => states
  | frame :: frames, states => passing frames (frame.state :: states)

variable [BEq K] [Hashable K]

/-- A search under way. -/
inductive Machine (S : Type u) (K : Type v) [BEq K] [Hashable K] where
  /-- A state is examined. -/
  | enter (state : S) (frames : List (Frame S)) (progress : Progress K)
  /-- The next successor of a state is looked at, if there is one. -/
  | browse (frame : Frame S) (frames : List (Frame S)) (progress : Progress K)
  /-- A state has led nowhere. -/
  | leave (state : S) (frames : List (Frame S)) (progress : Progress K)

/-- The number of transitions from the start to the state that is looked at. -/
def Machine.depth : Machine S K → Nat
  | .enter _ frames _ => frames.length
  | .browse _ frames _ => frames.length + 1
  | .leave _ frames _ => frames.length

/-- One step of the search. -/
def step (space : StateSpace S K) (limits : Limits) : Machine S K → Outcome S K ⊕ Machine S K
  | .enter state frames progress =>
    if limits.maxDepth.toNat < frames.length then
      .inl ⟨.stopped (.depth limits.maxDepth), progress⟩
    else if space.isDeadEnd state then .inr (.leave state frames progress.countPruned)
    else if space.isGoal state then .inl ⟨.found (passing frames [state]), progress⟩
    else
      let progress := progress.mark (space.key state)
      match limits.spent progress.stats.expansions with
      | some limit => .inl ⟨.stopped (.expansions limit), progress⟩
      | none => .inr (.browse ⟨state, space.successors state⟩ frames progress.countExpanded)
  | .browse ⟨state, []⟩ frames progress => .inr (.leave state frames progress)
  | .browse ⟨state, next :: untried⟩ frames progress =>
    if space.key next ∈ progress.visited then .inr (.browse ⟨state, untried⟩ frames progress)
    else .inr (.enter next (⟨state, untried⟩ :: frames) progress)
  | .leave _ [] progress => .inl ⟨.exhausted, progress⟩
  | .leave state (frame :: frames) progress =>
    .inr (.browse frame frames (progress.mark (space.key state)))

/-- A search that is about to begin, unless its start was visited before. -/
def start (space : StateSpace S K) (visited : VisitedSet K) (initial : S) :
    Outcome S K ⊕ Machine S K :=
  if space.key initial ∈ visited then .inl ⟨.exhausted, { visited }⟩
  else .inr (.enter initial [] { visited })

/-- A search that has not ended takes a step. -/
def Next (space : StateSpace S K) (limits : Limits) (config next : Outcome S K ⊕ Machine S K) :
    Prop :=
  ∃ machine, config = .inr machine ∧ step space limits machine = next

/-- Any number of steps. -/
def Runs (space : StateSpace S K) (limits : Limits) :
    Outcome S K ⊕ Machine S K → Outcome S K ⊕ Machine S K → Prop :=
  Relation.ReflTransGen (Next space limits)

variable {space : StateSpace S K} {limits : Limits} {visited : VisitedSet K} {initial state : S}
  {machine next : Machine S K} {frames : List (Frame S)} {outcome other : Outcome S K}
  {config : Outcome S K ⊕ Machine S K}

/-! ## One step -/

/-- The ways in which a step can go. -/
inductive Turn (space : StateSpace S K) (limits : Limits) :
    Machine S K → Outcome S K ⊕ Machine S K → Prop
  | tooDeep {state : S} {frames : List (Frame S)} {progress : Progress K} :
      limits.maxDepth.toNat < frames.length →
      Turn space limits (.enter state frames progress)
        (.inl ⟨.stopped (.depth limits.maxDepth), progress⟩)
  | deadEnd {state : S} {frames : List (Frame S)} {progress : Progress K} :
      frames.length ≤ limits.maxDepth.toNat → space.isDeadEnd state = true →
      Turn space limits (.enter state frames progress)
        (.inr (.leave state frames progress.countPruned))
  | goal {state : S} {frames : List (Frame S)} {progress : Progress K} :
      frames.length ≤ limits.maxDepth.toNat → space.isDeadEnd state = false →
      space.isGoal state = true →
      Turn space limits (.enter state frames progress)
        (.inl ⟨.found (passing frames [state]), progress⟩)
  | spent {state : S} {frames : List (Frame S)} {progress : Progress K} {limit : UInt64} :
      frames.length ≤ limits.maxDepth.toNat → space.isDeadEnd state = false →
      space.isGoal state = false → limits.spent progress.stats.expansions = some limit →
      Turn space limits (.enter state frames progress)
        (.inl ⟨.stopped (.expansions limit), progress.mark (space.key state)⟩)
  | expanded {state : S} {frames : List (Frame S)} {progress : Progress K} :
      frames.length ≤ limits.maxDepth.toNat → space.isDeadEnd state = false →
      space.isGoal state = false → limits.spent progress.stats.expansions = none →
      Turn space limits (.enter state frames progress)
        (.inr (.browse ⟨state, space.successors state⟩ frames
          (progress.mark (space.key state)).countExpanded))
  | done {state : S} {frames : List (Frame S)} {progress : Progress K} :
      Turn space limits (.browse ⟨state, []⟩ frames progress) (.inr (.leave state frames progress))
  | seen {state next : S} {untried : List S} {frames : List (Frame S)} {progress : Progress K} :
      space.key next ∈ progress.visited →
      Turn space limits (.browse ⟨state, next :: untried⟩ frames progress)
        (.inr (.browse ⟨state, untried⟩ frames progress))
  | enters {state next : S} {untried : List S} {frames : List (Frame S)} {progress : Progress K} :
      space.key next ∉ progress.visited →
      Turn space limits (.browse ⟨state, next :: untried⟩ frames progress)
        (.inr (.enter next (⟨state, untried⟩ :: frames) progress))
  | exhausted {state : S} {progress : Progress K} :
      Turn space limits (.leave state [] progress) (.inl ⟨.exhausted, progress⟩)
  | returns {state : S} {frame : Frame S} {frames : List (Frame S)} {progress : Progress K} :
      Turn space limits (.leave state (frame :: frames) progress)
        (.inr (.browse frame frames (progress.mark (space.key state))))

theorem turn_step (space : StateSpace S K) (limits : Limits) (machine : Machine S K) :
    Turn space limits machine (step space limits machine) := by
  cases machine with
  | enter state frames progress =>
    rw [step]
    split
    · next deep => exact .tooDeep deep
    next shallow =>
    have shallow := Nat.not_lt.1 shallow
    split
    · next deadEnd => exact .deadEnd shallow deadEnd
    next alive =>
    have alive : space.isDeadEnd state = false := by simpa using alive
    split
    · next goal => exact .goal shallow alive goal
    next noGoal =>
    have noGoal : space.isGoal state = false := by simpa using noGoal
    dsimp only
    split
    · next overspent => exact .spent shallow alive noGoal overspent
    · next unspent => exact .expanded shallow alive noGoal unspent
  | browse frame frames progress =>
    obtain ⟨state, untried⟩ := frame
    cases untried with
    | nil => exact .done
    | cons next untried =>
      rw [step]
      split
      · next known => exact .seen known
      · next fresh => exact .enters fresh
  | leave state frames progress =>
    cases frames with
    | nil => exact .exhausted
    | cons frame frames => exact .returns

/-- There is one way to go only. -/
theorem Turn.step_eq (turn : Turn space limits machine config) :
    step space limits machine = config := by
  cases turn with
  | tooDeep deep => rw [step, if_pos deep]
  | deadEnd shallow deadEnd => rw [step, if_neg (Nat.not_lt.2 shallow), if_pos deadEnd]
  | goal shallow alive goal => simp [step, Nat.not_lt.2 shallow, alive, goal]
  | spent shallow alive noGoal overspent =>
    simp [step, Nat.not_lt.2 shallow, alive, noGoal, overspent]
  | expanded shallow alive noGoal unspent =>
    simp [step, Nat.not_lt.2 shallow, alive, noGoal, unspent]
  | done => rfl
  | seen known => rw [step, if_pos known]
  | enters fresh => rw [step, if_neg fresh]
  | exhausted => rfl
  | returns => rfl

theorem Runs.of_turn (turn : Turn space limits machine config) :
    Runs space limits (.inr machine) config :=
  .single ⟨machine, rfl, turn.step_eq⟩

/-- There is at most one next step. -/
theorem next_rightUnique (space : StateSpace S K) (limits : Limits) :
    Relator.RightUnique (Next space limits) := by
  rintro config left right ⟨machine, rfl, rfl⟩ ⟨machine', same, rfl⟩
  cases same
  rfl

theorem eq_of_runs_inl (runs : Runs space limits (.inl outcome) config) :
    config = .inl outcome := by
  rcases runs.cases_head with same | ⟨next, ⟨machine, ended, _⟩, _⟩
  · exact same.symm
  · cases ended

/-- A search ends in one way only. -/
theorem Runs.unique (runs : Runs space limits config (.inl outcome))
    (runs' : Runs space limits config (.inl other)) : outcome = other := by
  rcases runs.total_of_right_unique (next_rightUnique space limits) runs' with onward | onward
  · exact (Sum.inl.inj (eq_of_runs_inl onward)).symm
  · exact Sum.inl.inj (eq_of_runs_inl onward)

/-- Only a state that was not too deep itself is left for one further down. -/
theorem depth_step (within : machine.depth ≤ limits.maxDepth.toNat + 1)
    (stepped : step space limits machine = .inr next) :
    next.depth ≤ limits.maxDepth.toNat + 1 := by
  have turn := turn_step space limits machine
  rw [stepped] at turn
  cases turn with
  | deadEnd => exact within
  | expanded shallow => exact Nat.succ_le_succ shallow
  | done => exact Nat.le_of_succ_le within
  | seen => exact within
  | enters => exact within
  | returns => exact within

/-- Nothing is looked at more than one transition further down than the limit allows. -/
theorem depth_le_of_runs (runs : Runs space limits (start space visited initial) (.inr machine)) :
    machine.depth ≤ limits.maxDepth.toNat + 1 := by
  generalize reached : Sum.inr machine = config at runs
  induction runs generalizing machine with
  | refl =>
    rw [start] at reached
    split at reached <;> cases reached
    exact Nat.zero_le _
  | tail _ next ih =>
    obtain ⟨earlier, rfl, stepped⟩ := next
    exact depth_step (ih rfl) (stepped.trans reached.symm)

/-! ## A whole search -/

/-- From the machine the search comes to leave the state with the given frames below it, or ends
with what was found or stopped there. -/
def Settles (space : StateSpace S K) (limits : Limits) (machine : Machine S K) (state : S)
    (frames : List (Frame S)) (after : Progress K) : Verdict S → Prop
  | .exhausted => Runs space limits (.inr machine) (.inr (.leave state frames after))
  | .found states => Runs space limits (.inr machine) (.inl ⟨.found (passing frames states), after⟩)
  | .stopped reason => Runs space limits (.inr machine) (.inl ⟨.stopped reason, after⟩)

/-- Steps on the way to a machine change nothing in what it comes to. -/
theorem Settles.of_runs {after : Progress K} {verdict : Verdict S}
    (runs : Runs space limits (.inr machine) (.inr next))
    (settles : Settles space limits next state frames after verdict) :
    Settles space limits machine state frames after verdict := by
  cases verdict <;> exact runs.trans settles

/-- A task at its place in the stack settles: a state as one that is entered, the states of a list
as the successors of one more state. -/
def Task.Settles (space : StateSpace S K) (limits : Limits) (remaining : Nat)
    (before after : Progress K) (verdict : Verdict S) : Task S → Prop
  | .state entered => ∀ frames, frames.length + remaining = limits.maxDepth.toNat + 1 →
    DepthFirst.Settles space limits (.enter entered frames before) entered frames after verdict
  | .siblings listed => ∀ state frames, frames.length + remaining = limits.maxDepth.toNat →
    DepthFirst.Settles space limits (.browse ⟨state, listed⟩ frames before) state frames after
      (verdict.behind state)

/-- The steps follow the exploration. -/
theorem Explores.settles {remaining : Nat} {task : Task S} {entered : List S}
    {before after : Progress K} {verdict : Verdict S}
    (explores : Explores space limits remaining task entered before verdict after) :
    task.Settles space limits remaining before after verdict := by
  -- The frames below are arbitrary but for their number: together with the transitions that remain
  -- it makes up the depth limit, so that the check on the stack stops where the recursion does.
  induction explores with
  | tooDeep =>
    intro frames height
    exact Runs.of_turn (.tooDeep (by omega))
  | deadEnd deadEnd =>
    intro frames height
    exact Runs.of_turn (.deadEnd (by omega) deadEnd)
  | goal alive goal =>
    intro frames height
    exact Runs.of_turn (.goal (by omega) alive goal)
  | spent alive noGoal overspent =>
    intro frames height
    exact Runs.of_turn (.spent (by omega) alive noGoal overspent)
  | expanded alive noGoal unspent _ ih =>
    intro frames height
    exact .of_runs (.of_turn (.expanded (by omega) alive noGoal unspent)) (ih _ frames (by omega))
  | done =>
    intro state frames height
    exact Runs.of_turn .done
  | seen known _ ih =>
    intro state frames height
    exact .of_runs (.of_turn (.seen known)) (ih state frames height)
  | @failed remaining next rest _ _ before middle _ _ fresh _ _ ih ih' =>
    intro state frames height
    have inner : Runs space limits (.inr (.enter next (⟨state, rest⟩ :: frames) before))
        (.inr (.leave next (⟨state, rest⟩ :: frames) middle)) :=
      ih (⟨state, rest⟩ :: frames) (by rw [List.length_cons]; omega)
    exact .of_runs ((Runs.of_turn (.enters fresh)).trans (inner.trans (Runs.of_turn .returns)))
      (ih' state frames height)
  | @decided remaining next rest _ before _ verdict fresh undecided _ ih =>
    intro state frames height
    have entered : Runs space limits (.inr (.browse ⟨state, next :: rest⟩ frames before))
        (.inr (.enter next (⟨state, rest⟩ :: frames) before)) := .of_turn (.enters fresh)
    have inner := ih (⟨state, rest⟩ :: frames) (by rw [List.length_cons]; omega)
    cases verdict with
    | exhausted => exact absurd rfl undecided
    | found states => exact entered.trans inner
    | stopped reason => exact entered.trans inner

/-- The steps end with the answer of the search. -/
theorem runs_start (space : StateSpace S K) (limits : Limits) (visited : VisitedSet K)
    (initial : S) :
    Runs space limits (start space visited initial)
      (.inl (search space limits visited initial)) := by
  rcases exists_explores_search space limits visited initial with
    ⟨known, answer⟩ | ⟨fresh, entered, explores⟩
  · rw [answer, start, if_pos known]
    exact .refl
  · rw [start, if_neg fresh]
    generalize search space limits visited initial = outcome at explores ⊢
    obtain ⟨verdict, after⟩ := outcome
    have settles := explores.settles [] (Nat.zero_add _)
    cases verdict with
    | exhausted => exact settles.trans (Runs.of_turn .exhausted)
    | found states => exact settles
    | stopped reason => exact settles

theorem runs_start_iff :
    Runs space limits (start space visited initial) (.inl outcome) ↔
      search space limits visited initial = outcome := by
  constructor
  · exact (runs_start space limits visited initial).unique
  · rintro rfl
    exact runs_start space limits visited initial

end SearchSpace.DepthFirst
