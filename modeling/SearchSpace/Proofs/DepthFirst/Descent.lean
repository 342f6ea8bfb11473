import SearchSpace.Proofs.Graph
import SearchSpace.Proofs.Survey

/-!
# Descents into a buffer

The search below a state as its caller sees it, who hands in a buffer and is told whether a goal was
reached. The states on the way to the goal are pushed onto the buffer as the search returns, so the
goal comes first. What was examined and what was expanded is written down beside it. A descent
decides and marks what the search does, and what is written down is what the search enters and
counts. If it fails, the buffer is as it was, nothing examined was a goal worth having, and the
successors of all that was expanded are marked, also those that were only met in another branch.
-/

namespace SearchSpace

universe u v

/-- The states on the way to the goal, if one was reached. -/
def Verdict.states {S : Type u} : Verdict S → List S
  | .found states => states
  | .exhausted | .stopped _ => []

/-- Whether a goal was reached, unless a limit stopped the search. -/
def Verdict.answer {S : Type u} : Verdict S → Except LimitExceeded Bool
  | .found _ => .ok true
  | .exhausted => .ok false
  | .stopped reason => .error reason

/-- Of the states that a search entered, those that it was done with at its verdict: all of them,
but for the last one if a limit stopped it there. -/
def Verdict.passed {S : Type u} (entered : List S) : Verdict S → List S
  | .found _ | .exhausted => entered
  | .stopped _ => entered.dropLast

@[simp] theorem Verdict.passed_behind {S : Type u} (state : S) (verdict : Verdict S)
    (entered : List S) : (verdict.behind state).passed entered = verdict.passed entered := by
  cases verdict <;> rfl

/-- A search is done with what it entered before. -/
theorem Verdict.passed_append {S : Type u} {verdict : Verdict S} (entered : List S)
    {others : List S} (nonempty : verdict ≠ .exhausted → others ≠ []) :
    verdict.passed (entered ++ others) = entered ++ verdict.passed others := by
  cases verdict with
  | found => rfl
  | exhausted => rfl
  | stopped => exact List.dropLast_append_of_ne_nil (nonempty (by simp))

theorem Verdict.passed_cons {S : Type u} {verdict : Verdict S} (state : S) {others : List S}
    (nonempty : verdict ≠ .exhausted → others ≠ []) :
    verdict.passed (state :: others) = state :: verdict.passed others :=
  passed_append [state] nonempty

theorem Verdict.answer_eq_false {S : Type u} {verdict : Verdict S} :
    verdict.answer = .ok false ↔ verdict = .exhausted := by
  cases verdict <;> simp [answer]

theorem Verdict.answer_eq_true {S : Type u} {verdict : Verdict S} :
    verdict.answer = .ok true ↔ ∃ states, verdict = .found states := by
  cases verdict <;> simp [answer]

/-- Whether the successors of the state are of interest: it is neither a dead end nor a goal. -/
def StateSpace.isInner {S : Type u} {K : Type v} (space : StateSpace S K) (state : S) : Bool :=
  !space.isDeadEnd state && !space.isGoal state

theorem StateSpace.isInner_iff {S : Type u} {K : Type v} {space : StateSpace S K} {state : S} :
    space.isInner state = true ↔ space.isDeadEnd state = false ∧ space.isGoal state = false := by
  simp [isInner]

namespace DepthFirst

/-- What a descent leaves behind. -/
structure Descent (S : Type u) (K : Type v) [BEq K] [Hashable K] where
  /-- Whether a goal was reached, unless a limit stopped the descent. -/
  answer : Except LimitExceeded Bool
  progress : Progress K
  /-- What was handed in, and behind it what was pushed. -/
  buffer : List S
  /-- The states that were examined, in order. -/
  examined : List S
  /-- Those of them whose successors were generated. -/
  expanded : List S

variable {S : Type u} {K : Type v} [BEq K] [Hashable K]

/-- Descends into the states of a list one after another, but for those that were visited
meanwhile, until a goal is reached or a limit is exceeded. -/
def descendFirst (space : StateSpace S K) (visit : S → Progress K → List S → Descent S K) :
    List S → Progress K → List S → Descent S K
  | [], progress, buffer => ⟨.ok false, progress, buffer, [], []⟩
  | next :: rest, progress, buffer =>
    if space.key next ∈ progress.visited then descendFirst space visit rest progress buffer
    else
      let first := visit next progress buffer
      match first.answer with
      | .ok false =>
        let others := descendFirst space visit rest (first.progress.mark (space.key next))
          first.buffer
        { others with
          examined := first.examined ++ others.examined
          expanded := first.expanded ++ others.expanded }
      | .ok true | .error _ => first

/-- Descends into a state from which `remaining - 1` more transitions may be made. -/
def descend (space : StateSpace S K) (limits : Limits) :
    Nat → S → Progress K → List S → Descent S K
  | 0, state, progress, buffer =>
    ⟨.error (.depth limits.maxDepth), progress, buffer, [state], []⟩
  | remaining + 1, state, progress, buffer =>
    if space.isDeadEnd state then ⟨.ok false, progress.countPruned, buffer, [state], []⟩
    else if space.isGoal state then ⟨.ok true, progress, buffer ++ [state], [state], []⟩
    else
      let progress := progress.mark (space.key state)
      match limits.spent progress.stats.expansions with
      | some limit => ⟨.error (.expansions limit), progress, buffer, [state], []⟩
      | none =>
        let below := descendFirst space (descend space limits remaining) (space.successors state)
          progress.countExpanded buffer
        { below with
          buffer :=
            match below.answer with
            | .ok true => below.buffer ++ [state]
            | .ok false | .error _ => below.buffer
          examined := state :: below.examined
          expanded := state :: below.expanded }

/-- What a descent makes of a task. -/
def Task.descend (space : StateSpace S K) (limits : Limits) (remaining : Nat) :
    Task S → Progress K → List S → Descent S K
  | .state entered => DepthFirst.descend space limits remaining entered
  | .siblings listed => descendFirst space (DepthFirst.descend space limits remaining) listed

variable {space : StateSpace S K} {limits : Limits} {remaining : Nat} {task : Task S}
  {entered : List S} {before after : Progress K} {verdict : Verdict S}

namespace Explores

/-- Something was entered where it was decided. -/
theorem entered_ne_nil
    (explores : Explores space limits remaining task entered before verdict after)
    (decided : verdict ≠ .exhausted) : entered ≠ [] := by
  induction explores with
  | tooDeep => exact List.cons_ne_nil _ _
  | deadEnd => exact List.cons_ne_nil _ _
  | goal => exact List.cons_ne_nil _ _
  | spent => exact List.cons_ne_nil _ _
  | expanded => exact List.cons_ne_nil _ _
  | done => exact absurd rfl decided
  | seen _ _ ih => exact ih decided
  | failed _ _ _ _ ih => exact List.append_ne_nil_of_right_ne_nil _ (ih decided)
  | decided _ _ _ ih => exact ih decided

/-- A descent decides and marks what the search does, examines the states that it enters, and pushes
the states that it finds. It expands the inner ones of those that it is done with. -/
theorem descend_eq (explores : Explores space limits remaining task entered before verdict after)
    (buffer : List S) :
    task.descend space limits remaining before buffer =
      ⟨verdict.answer, after, buffer ++ verdict.states.reverse, entered,
        (verdict.passed entered).filter space.isInner⟩ := by
  -- For any buffer, since a branch that fails hands the same one on to the next.
  induction explores generalizing buffer with
  | tooDeep => simp [Task.descend, descend, Verdict.answer, Verdict.states, Verdict.passed]
  | deadEnd deadEnd =>
    simp [Task.descend, descend, deadEnd, Verdict.answer, Verdict.states, Verdict.passed,
      StateSpace.isInner]
  | goal alive goal =>
    simp [Task.descend, descend, alive, goal, Verdict.answer, Verdict.states, Verdict.passed,
      StateSpace.isInner]
  | spent alive noGoal overspent =>
    simp [Task.descend, descend, alive, noGoal, overspent, Verdict.answer, Verdict.states,
      Verdict.passed]
  | @expanded _ state entered _ _ verdict alive noGoal unspent explores ih =>
    have below := ih buffer
    have inner := StateSpace.isInner_iff.2 ⟨alive, noGoal⟩
    simp only [Task.descend] at below ⊢
    rw [Verdict.passed_behind, Verdict.passed_cons _ explores.entered_ne_nil,
      List.filter_cons_of_pos inner]
    cases verdict <;>
      simp [descend, alive, noGoal, unspent, below, Verdict.behind, Verdict.answer,
        Verdict.states]
  | done => simp [Task.descend, descendFirst, Verdict.answer, Verdict.states, Verdict.passed]
  | seen known _ ih =>
    have same := ih buffer
    simp only [Task.descend] at same ⊢
    rw [descendFirst, if_pos known, same]
  | failed fresh _ explores ih ih' =>
    have first := ih buffer
    have others := ih' buffer
    simp only [Verdict.answer, Verdict.states, Verdict.passed, List.reverse_nil,
      List.append_nil] at first
    simp only [Task.descend] at first others ⊢
    rw [descendFirst, if_neg fresh, first, Verdict.passed_append _ explores.entered_ne_nil,
      List.filter_append]
    simp only [others]
  | @decided _ _ _ _ _ _ verdict fresh undecided _ ih =>
    have first := ih buffer
    simp only [Task.descend] at first ⊢
    rw [descendFirst, if_neg fresh, first]
    cases verdict with
    | exhausted => exact absurd rfl undecided
    | found => rfl
    | stopped => rfl

/-- The inner states that an exploration is done with are those that it counts as expanded. -/
theorem expansions_eq
    (explores : Explores space limits remaining task entered before verdict after) :
    after.stats.expansions =
      before.stats.expansions + ((verdict.passed entered).filter space.isInner).length := by
  induction explores with
  | tooDeep => simp [Verdict.passed]
  | deadEnd deadEnd => simp [Verdict.passed, StateSpace.isInner, deadEnd]
  | goal _ goal => simp [Verdict.passed, StateSpace.isInner, goal]
  | spent => simp [Verdict.passed]
  | @expanded _ state entered _ _ _ alive noGoal _ explores ih =>
    have inner := StateSpace.isInner_iff.2 ⟨alive, noGoal⟩
    simp only [Progress.stats_countExpanded, Progress.expansions_mark] at ih
    rw [ih, Verdict.passed_behind, Verdict.passed_cons _ explores.entered_ne_nil,
      List.filter_cons_of_pos inner, List.length_cons]
    omega
  | done => simp [Verdict.passed]
  | seen _ _ ih => exact ih
  | failed _ _ explores ih ih' =>
    rw [ih', Progress.expansions_mark, ih, Verdict.passed_append _ explores.entered_ne_nil,
      List.filter_append, List.length_append, Nat.add_assoc]
    rfl
  | decided _ _ _ ih => exact ih

/-- When a state has failed, everything that the states entered below it lead to has been visited. A
dead end is not marked before its caller does it, but then nothing else was entered. -/
theorem closed [LawfulBEq K] {state : S}
    (explores : Explores space limits remaining (.state state) entered before verdict after)
    (fresh : space.key state ∉ before.visited) (exhausted : verdict = .exhausted) :
    ∀ other ∈ entered, space.isDeadEnd other = false →
      ∀ next ∈ space.successors other, space.key next ∈ after.visited := by
  intro other member aliveOther next successor
  have marked := (explores.covered fresh subset_rfl exhausted).closed other member aliveOther next
    successor
  cases alive : space.isDeadEnd state with
  | false =>
    have known := (explores.mem_visited_of_alive alive exhausted).2
    exact (Progress.mem_visited_mark known).1 marked
  | true =>
    obtain rfl : other = state := by
      cases explores with
      | deadEnd => exact List.mem_singleton.1 member
      | expanded alive' => simp [alive] at alive'
      | _ => cases exhausted
    rw [alive] at aliveOther
    cases aliveOther

end Explores

/-- What is written down of a descent is what the search does on its way to the verdict. -/
structure Descent.Traces (space : StateSpace S K) (limits : Limits) (remaining : Nat) (state : S)
    (before : Progress K) (verdict : Verdict S) (descent : Descent S K) : Prop where
  /-- The states that were examined, and no others, are those that the search enters. -/
  examined_iff : ∀ entered, Explores space limits remaining (.state state) entered before verdict
    descent.progress ↔ entered = descent.examined
  /-- Of those that it was done with, neither dead ends nor goals were expanded, but all others. -/
  expanded_eq : descent.expanded = (verdict.passed descent.examined).filter space.isInner
  /-- Each of these was counted. -/
  expansions_eq : descent.progress.stats.expansions =
    before.stats.expansions + descent.expanded.length

/-- What a descent from a state has come to once it failed. -/
structure Descent.Failed (space : StateSpace S K) (state : S) (before : Progress K)
    (buffer : List S) (descent : Descent S K) : Prop where
  buffer_eq : descent.buffer = buffer
  visited_subset : before.visited.toSet ⊆ descent.progress.visited.toSet
  useless : ∀ other ∈ descent.examined,
    space.isDeadEnd other = true ∨ space.isGoal other = false
  settled : space.isDeadEnd state = true ∨ space.key state ∈ descent.progress.visited
  closed : ∀ other ∈ descent.expanded, ∀ next ∈ space.successors other,
    space.key next ∈ descent.progress.visited

variable {state : S} {buffer : List S} {descent : Descent S K}

/-- The rules leave no choice of what is entered, since a descent writes it down. -/
theorem Explores.traces_descend
    (explores : Explores space limits remaining (.state state) entered before verdict after)
    (buffer : List S) :
    (descend space limits remaining state before buffer).Traces space limits remaining state before
      verdict := by
  have eq : descend space limits remaining state before buffer = _ := explores.descend_eq buffer
  rw [eq]
  refine ⟨fun other => ⟨fun explores' => ?_, ?_⟩, rfl, explores.expansions_eq⟩
  · have same := (explores'.descend_eq buffer).symm.trans (explores.descend_eq buffer)
    exact congrArg Descent.examined same
  · rintro rfl
    exact explores

variable [LawfulBEq K]

/-- A descent from a state that was not visited before fails where the search is exhausted. -/
theorem Explores.failed_descend
    (explores : Explores space limits remaining (.state state) entered before .exhausted after)
    (fresh : space.key state ∉ before.visited) (buffer : List S) :
    (descend space limits remaining state before buffer).Failed space state before buffer := by
  have covered := explores.covered fresh subset_rfl rfl
  have eq : descend space limits remaining state before buffer = _ := explores.descend_eq buffer
  rw [eq]
  refine ⟨List.append_nil _, explores.visited_subset, ?_, ?_, ?_⟩
  · intro other member
    exact or_iff_not_imp_left.2 fun alive => covered.noGoal other member (by simpa using alive)
  · refine or_iff_not_imp_left.2 fun alive => ?_
    exact (explores.mem_visited_of_alive (by simpa using alive) rfl).2
  · intro other member
    obtain ⟨inside, inner⟩ := List.mem_filter.1 member
    exact explores.closed fresh rfl other inside (StateSpace.isInner_iff.1 inner).1

/-- A descent from a state that was not visited before answers as the search does, leaves the same
progress behind, and examines and expands the same states. If it fails, nothing examined was worth
having and all that was expanded leads only to what is visited. If it succeeds, a simple solution
around everything visited before was pushed onto the buffer, the goal first. -/
theorem descend_contract (fresh : space.key state ∉ before.visited)
    (descends : descend space limits remaining state before buffer = descent) :
    descent.answer = (explore space limits remaining state before).verdict.answer ∧
      descent.progress = (explore space limits remaining state before).progress ∧
      descent.Traces space limits remaining state before
        (explore space limits remaining state before).verdict ∧
      (descent.answer = .ok false → descent.Failed space state before buffer) ∧
      (descent.answer = .ok true → ∃ positions states,
        space.SimpleSolution before.visited.toSet state positions states ∧
        descent.buffer = buffer ++ states.reverse) := by
  obtain ⟨entered, explores⟩ :=
    @exists_explores_explore S K _ _ space limits remaining state before
  have traces := explores.traces_descend buffer
  have failed (exhausted : (explore space limits remaining state before).verdict = .exhausted) :=
    (exhausted ▸ explores).failed_descend fresh buffer
  rw [descends] at traces failed
  obtain rfl : descent = _ := descends.symm.trans (explores.descend_eq buffer)
  refine ⟨rfl, rfl, traces, fun answered => failed (Verdict.answer_eq_false.1 answered),
    fun answered => ?_⟩
  obtain ⟨states, found⟩ := Verdict.answer_eq_true.1 answered
  obtain ⟨start, member, positions, solution⟩ := (explores.found fresh found).solution
  have same : start = state := List.mem_singleton.1 member
  rw [same] at solution
  refine ⟨positions, states, solution, ?_⟩
  show buffer ++ (explore space limits remaining state before).verdict.states.reverse = _
  rw [found]
  rfl

/-- The descent from 1 fails at the dead end 4. From 0 it goes down to 1 first and leaves the buffer
as it was, and then reaches 3 by way of 2. -/
theorem descend_contract_blindAlley :
    (descend Graph.blindAlley.space {} 4 1 { visited := .ofList [7] } [8]).Failed
        Graph.blindAlley.space 1 { visited := .ofList [7] } [8] ∧
      (descend Graph.blindAlley.space {} 4 0 { visited := .ofList [7] } [8]).buffer =
        [8, 3, 2, 0] ∧
      (descend Graph.blindAlley.space {} 4 0 { visited := .ofList [7] } [8]).examined =
        [0, 1, 4, 2, 3] ∧
      (descend Graph.blindAlley.space {} 4 0 { visited := .ofList [7] } [8]).expanded =
        [0, 1, 2] ∧
      ∃ positions, Graph.blindAlley.space.SimpleSolution (VisitedSet.ofList [7]).toSet 0 positions
        [0, 2, 3] := by
  have fresh : ∀ node ∈ [0, 1],
      Graph.blindAlley.space.key node ∉ (VisitedSet.ofList [7] : VisitedSet Nat) := by
    simp [VisitedSet.mem_ofList, Graph.blindAlley, Graph.space, Graph.key]
  have failed :
      (descend Graph.blindAlley.space {} 4 1 { visited := .ofList [7] } [8]).answer =
        .ok false := by
    simp [descend, descendFirst, Limits.spent, VisitedSet.mem_ofList, VisitedSet.mem_insert,
      Graph.blindAlley, Graph.space, Graph.key, Graph.successors]
  have succeeded :
      (descend Graph.blindAlley.space {} 4 0 { visited := .ofList [7] } [8]).answer =
        .ok true ∧
      (descend Graph.blindAlley.space {} 4 0 { visited := .ofList [7] } [8]).buffer =
        [8, 3, 2, 0] ∧
      (descend Graph.blindAlley.space {} 4 0 { visited := .ofList [7] } [8]).examined =
        [0, 1, 4, 2, 3] ∧
      (descend Graph.blindAlley.space {} 4 0 { visited := .ofList [7] } [8]).expanded =
        [0, 1, 2] := by
    simp [descend, descendFirst, Limits.spent, VisitedSet.mem_ofList, VisitedSet.mem_insert,
      Graph.blindAlley, Graph.space, Graph.key, Graph.successors]
  obtain ⟨positions, states, solution, pushed⟩ :=
    (descend_contract (fresh 0 (by simp)) rfl).2.2.2.2 succeeded.1
  refine ⟨(descend_contract (fresh 1 (by simp)) rfl).2.2.2.1 failed, succeeded.2.1,
    succeeded.2.2.1, succeeded.2.2.2, positions, ?_⟩
  have backwards : states.reverse = [3, 2, 0] :=
    List.append_cancel_left (pushed.symm.trans succeeded.2.1)
  rw [List.reverse_eq_iff.1 backwards] at solution
  exact solution

end DepthFirst

end SearchSpace
