import SearchSpace.DepthFirst
import SearchSpace.Proofs.Walk

/-!
# Explorations

The rules by which a depth-first search goes down: what looking into one state, or into the states
of a list one after another, decides and marks, and which states it enters. The search follows the
rules, so what it keeps is proved by induction on them.
-/

namespace SearchSpace

universe u v

/-- The verdict as seen from the state before. -/
def Verdict.behind {S : Type u} (state : S) : Verdict S → Verdict S
  | .found states => .found (state :: states)
  | .exhausted => .exhausted
  | .stopped reason => .stopped reason

@[simp] theorem Verdict.behind_eq_found {S : Type u} {state : S} {verdict : Verdict S}
    {states : List S} :
    verdict.behind state = .found states ↔ ∃ rest, verdict = .found rest ∧ states = state :: rest :=
  by cases verdict <;> simp [Verdict.behind, eq_comm]

@[simp] theorem Verdict.behind_eq_exhausted {S : Type u} {state : S} {verdict : Verdict S} :
    verdict.behind state = .exhausted ↔ verdict = .exhausted := by
  cases verdict <;> simp [Verdict.behind]

@[simp] theorem Verdict.behind_eq_stopped {S : Type u} {state : S} {verdict : Verdict S}
    {reason : LimitExceeded} : verdict.behind state = .stopped reason ↔ verdict = .stopped reason :=
  by cases verdict <;> simp [Verdict.behind]

theorem Verdict.not_stopped_of_behind {S : Type u} {state : S} {verdict : Verdict S}
    (unstopped : ∀ reason, verdict.behind state ≠ .stopped reason) :
    ∀ reason, verdict ≠ .stopped reason := by
  intro reason stopped
  exact unstopped reason (Verdict.behind_eq_stopped.2 stopped)

namespace DepthFirst

variable {S : Type u} {K : Type v} [BEq K] [Hashable K]

/-- What is to be looked into. -/
inductive Task (S : Type u) where
  /-- A state that is entered. -/
  | state (state : S)
  /-- The states of a list, one after another, but for those that were visited. -/
  | siblings (states : List S)

/-- The states to be looked into. -/
def Task.states : Task S → List S
  | .state entered => [entered]
  | .siblings listed => listed

/-- A state is entered only if it was not visited. -/
def Task.Unvisited (space : StateSpace S K) (visited : VisitedSet K) : Task S → Prop
  | .state entered => space.key entered ∉ visited
  | .siblings _ => True

/-- With so many transitions remaining, plus one, a task enters the states of a list, in order, and
leads from one progress to another. -/
inductive Explores (space : StateSpace S K) (limits : Limits) :
    Nat → Task S → List S → Progress K → Verdict S → Progress K → Prop
  | tooDeep {state : S} {before : Progress K} :
      Explores space limits 0 (.state state) [state] before (.stopped (.depth limits.maxDepth))
        before
  | deadEnd {remaining : Nat} {state : S} {before : Progress K} :
      space.isDeadEnd state = true →
      Explores space limits (remaining + 1) (.state state) [state] before .exhausted
        before.countPruned
  | goal {remaining : Nat} {state : S} {before : Progress K} :
      space.isDeadEnd state = false → space.isGoal state = true →
      Explores space limits (remaining + 1) (.state state) [state] before (.found [state]) before
  | spent {remaining : Nat} {state : S} {before : Progress K} {limit : UInt64} :
      space.isDeadEnd state = false → space.isGoal state = false →
      limits.spent before.stats.expansions = some limit →
      Explores space limits (remaining + 1) (.state state) [state] before
        (.stopped (.expansions limit)) (before.mark (space.key state))
  | expanded {remaining : Nat} {state : S} {entered : List S} {before after : Progress K}
      {verdict : Verdict S} :
      space.isDeadEnd state = false → space.isGoal state = false →
      limits.spent before.stats.expansions = none →
      Explores space limits remaining (.siblings (space.successors state)) entered
        (before.mark (space.key state)).countExpanded verdict after →
      Explores space limits (remaining + 1) (.state state) (state :: entered) before
        (verdict.behind state) after
  | done {remaining : Nat} {before : Progress K} :
      Explores space limits remaining (.siblings []) [] before .exhausted before
  | seen {remaining : Nat} {next : S} {rest entered : List S} {before after : Progress K}
      {verdict : Verdict S} :
      space.key next ∈ before.visited →
      Explores space limits remaining (.siblings rest) entered before verdict after →
      Explores space limits remaining (.siblings (next :: rest)) entered before verdict after
  | failed {remaining : Nat} {next : S} {rest entered others : List S}
      {before middle after : Progress K} {verdict : Verdict S} :
      space.key next ∉ before.visited →
      Explores space limits remaining (.state next) entered before .exhausted middle →
      Explores space limits remaining (.siblings rest) others (middle.mark (space.key next))
        verdict after →
      Explores space limits remaining (.siblings (next :: rest)) (entered ++ others) before verdict
        after
  | decided {remaining : Nat} {next : S} {rest entered : List S} {before after : Progress K}
      {verdict : Verdict S} :
      space.key next ∉ before.visited → verdict ≠ .exhausted →
      Explores space limits remaining (.state next) entered before verdict after →
      Explores space limits remaining (.siblings (next :: rest)) entered before verdict after

variable {space : StateSpace S K} {limits : Limits}

/-- Going through a list follows the rules if every visit does. -/
theorem exists_explores_firstRoute {remaining : Nat} {visit : S → Progress K → Outcome S K}
    (visits : ∀ state before, ∃ entered, Explores space limits remaining (.state state) entered
      before (visit state before).verdict (visit state before).progress)
    (states : List S) (before : Progress K) :
    ∃ entered, Explores space limits remaining (.siblings states) entered before
      (firstRoute space visit states before).verdict
      (firstRoute space visit states before).progress := by
  induction states generalizing before with
  | nil => exact ⟨[], .done⟩
  | cons next rest ih =>
    rw [firstRoute]
    split
    · next known =>
      obtain ⟨entered, explores⟩ := ih before
      exact ⟨entered, .seen known explores⟩
    · next fresh =>
      obtain ⟨entered, explores⟩ := visits next before
      split
      · next middle visited =>
        rw [visited] at explores
        obtain ⟨others, explores'⟩ := ih (middle.mark (space.key next))
        exact ⟨entered ++ others, .failed fresh explores explores'⟩
      · next undecided =>
        refine ⟨entered, .decided fresh (fun exhausted => ?_) explores⟩
        exact undecided _ (by rw [← exhausted])

/-- The search follows the rules. -/
theorem exists_explores_explore (remaining : Nat) (state : S) (before : Progress K) :
    ∃ entered, Explores space limits remaining (.state state) entered before
      (explore space limits remaining state before).verdict
      (explore space limits remaining state before).progress := by
  induction remaining generalizing state before with
  | zero => exact ⟨[state], .tooDeep⟩
  | succ remaining ih =>
    rw [explore]
    split
    · next deadEnd => exact ⟨[state], .deadEnd deadEnd⟩
    · next alive =>
      have alive : space.isDeadEnd state = false := by simpa using alive
      split
      · next goal => exact ⟨[state], .goal alive goal⟩
      · next noGoal =>
        have noGoal : space.isGoal state = false := by simpa using noGoal
        dsimp only
        split
        · next limit overspent => exact ⟨[state], .spent alive noGoal overspent⟩
        · next within =>
          obtain ⟨entered, explores⟩ := exists_explores_firstRoute ih (space.successors state)
            (before.mark (space.key state)).countExpanded
          have expanded : Explores space limits (remaining + 1) (.state state) (state :: entered)
              before _ _ := .expanded alive noGoal within explores
          refine ⟨state :: entered, ?_⟩
          split
          · next states after found =>
            rw [found] at expanded
            exact expanded
          · next other =>
            cases verdict : (firstRoute space (explore space limits remaining)
                (space.successors state) (before.mark (space.key state)).countExpanded).verdict with
            | found states => exact absurd (by rw [← verdict]) (other states _)
            | exhausted => rwa [verdict] at expanded
            | stopped reason => rwa [verdict] at expanded

/-- Either the start was visited before, or the search explores from it. -/
theorem exists_explores_search (space : StateSpace S K) (limits : Limits)
    (visited : VisitedSet K) (initial : S) :
    space.key initial ∈ visited ∧ search space limits visited initial = ⟨.exhausted, { visited }⟩ ∨
      space.key initial ∉ visited ∧ ∃ entered, Explores space limits (limits.maxDepth.toNat + 1)
        (.state initial) entered { visited } (search space limits visited initial).verdict
        (search space limits visited initial).progress := by
  rw [search]
  split
  · next known => exact .inl ⟨known, rfl⟩
  · next fresh => exact .inr ⟨fresh, exists_explores_explore _ _ _⟩

/-- What the search makes of a task. -/
def Task.run (space : StateSpace S K) (limits : Limits) (remaining : Nat) :
    Task S → Progress K → Outcome S K
  | .state entered => explore space limits remaining entered
  | .siblings listed => firstRoute space (explore space limits remaining) listed

namespace Explores

variable {remaining : Nat} {task : Task S} {entered states : List S} {before after : Progress K}
  {verdict : Verdict S}

/-- The rules leave no choice: what they allow is what the search does. -/
theorem run_eq (explores : Explores space limits remaining task entered before verdict after) :
    task.run space limits remaining before = ⟨verdict, after⟩ := by
  induction explores with
  | tooDeep => rfl
  | deadEnd deadEnd => simp [Task.run, explore, deadEnd]
  | goal alive goal => simp [Task.run, explore, alive, goal]
  | spent alive noGoal overspent =>
    simp [Task.run, explore, alive, noGoal, overspent]
  | @expanded _ state _ _ _ verdict alive noGoal unspent _ ih =>
    have inner := ih
    simp only [Task.run] at inner ⊢
    cases verdict <;> simp [explore, alive, noGoal, unspent, inner, Verdict.behind]
  | done => rfl
  | seen known _ ih =>
    simp only [Task.run] at ih ⊢
    rw [firstRoute, if_pos known, ih]
  | failed fresh _ _ ih ih' =>
    simp only [Task.run] at ih ih' ⊢
    rw [firstRoute, if_neg fresh, ih]
    exact ih'
  | @decided _ _ _ _ _ _ verdict fresh undecided _ ih =>
    simp only [Task.run] at ih ⊢
    rw [firstRoute, if_neg fresh, ih]
    cases verdict with
    | exhausted => exact absurd rfl undecided
    | found => rfl
    | stopped => rfl

/-- What the rules allow from a start that was not visited before is what the search answers. -/
theorem search_eq {visited : VisitedSet K} {initial : S} (fresh : space.key initial ∉ visited)
    (explores : Explores space limits (limits.maxDepth.toNat + 1) (.state initial) entered
      { visited } verdict after) :
    search space limits visited initial = ⟨verdict, after⟩ := by
  rw [search, if_neg fresh]
  exact explores.run_eq

/-- An exploration keeps what each mark and each count keeps. -/
theorem rel_progress {R : Progress K → Progress K → Prop} (refl : ∀ progress, R progress progress)
    (trans : ∀ {first second third}, R first second → R second third → R first third)
    (mark : ∀ progress key, R progress (progress.mark key))
    (countPruned : ∀ progress, R progress progress.countPruned)
    (countExpanded : ∀ progress, limits.spent progress.stats.expansions = none →
      R progress progress.countExpanded)
    (explores : Explores space limits remaining task entered before verdict after) :
    R before after := by
  induction explores with
  | tooDeep => exact refl _
  | deadEnd => exact countPruned _
  | goal => exact refl _
  | spent => exact mark _ _
  | expanded _ _ within _ ih =>
    exact trans (mark _ _) (trans (countExpanded _ within) ih)
  | done => exact refl _
  | seen _ _ ih => exact ih
  | failed _ _ _ ih ih' => exact trans ih (trans (mark _ _) ih')
  | decided _ _ _ ih => exact ih

theorem expansions_le
    (explores : Explores space limits remaining task entered before verdict after) :
    before.stats.expansions ≤ after.stats.expansions := by
  apply rel_progress (R := fun left right => left.stats.expansions ≤ right.stats.expansions)
    (fun _ => Nat.le_refl _) Nat.le_trans (fun _ _ => Nat.le_refl _) (fun _ => Nat.le_refl _) ?_
    explores
  intro progress _
  rw [Progress.stats_countExpanded]
  exact Nat.le_succ _

/-- A budget that was not overspent before is not overspent after. -/
theorem within (explores : Explores space limits remaining task entered before verdict after)
    (unspent : limits.Within before.stats.expansions) : limits.Within after.stats.expansions := by
  refine rel_progress (R := fun left right =>
    limits.Within left.stats.expansions → limits.Within right.stats.expansions)
    (fun _ => id) (fun first second => second ∘ first) (fun _ _ => id) (fun _ => id) ?_ explores
    unspent
  intro progress more _
  rw [Progress.stats_countExpanded]
  exact Limits.within_succ more

variable [LawfulBEq K]

theorem visited_subset
    (explores : Explores space limits remaining task entered before verdict after) :
    before.visited.toSet ⊆ after.visited.toSet := by
  apply rel_progress (R := fun left right => left.visited.toSet ⊆ right.visited.toSet)
    (fun _ => subset_rfl) subset_trans ?_ (fun _ => subset_rfl) (fun _ _ => subset_rfl) explores
  intro progress key other member
  exact VisitedSet.mem_insert.2 (.inr member)

/-- What an exploration that finds a path has found: a simple solution around everything visited
before, with no goal on the way, no longer than was allowed, and paid for by expansions. -/
structure Found (space : StateSpace S K) (remaining : Nat) (task : Task S)
    (before after : Progress K) (states : List S) : Prop where
  solution : ∃ start ∈ task.states, ∃ positions,
    space.SimpleSolution before.visited.toSet start positions states
  noGoal : ∀ state ∈ states.dropLast, space.isGoal state = false
  length_le : states.length ≤ remaining
  expansions_le : before.stats.expansions + states.length ≤ after.stats.expansions + 1

theorem found (explores : Explores space limits remaining task entered before verdict after)
    (unvisited : task.Unvisited space before.visited) (found : verdict = .found states) :
    Found space remaining task before after states := by
  induction explores generalizing states with
  | tooDeep => cases found
  | deadEnd => cases found
  | @goal remaining state before alive goal =>
    cases found
    exact ⟨⟨state, List.mem_singleton_self _, [], .stay alive unvisited goal⟩, by simp, by simp,
      by simp⟩
  | spent => cases found
  | @expanded remaining state entered before after verdict alive noGoal _ _ ih =>
    obtain ⟨rest, inner, rfl⟩ := Verdict.behind_eq_found.1 found
    obtain ⟨⟨next, member, positions, solution⟩, noGoal', length_le, expansions_le⟩ :=
      ih trivial inner
    obtain ⟨position, taken⟩ := List.mem_iff_getElem?.1 member
    rw [Progress.visited_countExpanded, Progress.visited_mark, VisitedSet.toSet_insert] at solution
    refine ⟨⟨state, List.mem_singleton_self _, position :: positions,
      .move alive unvisited taken solution⟩, ?_, ?_, ?_⟩
    · rw [List.dropLast_cons_of_ne_nil solution.walk.states_ne_nil]
      exact List.forall_mem_cons.2 ⟨noGoal, noGoal'⟩
    · simp only [List.length_cons]
      omega
    · simp only [Progress.stats_countExpanded, Progress.expansions_mark, List.length_cons] at *
      omega
  | done => cases found
  | seen _ _ ih =>
    obtain ⟨⟨start, member, solution⟩, noGoal, length_le, expansions_le⟩ := ih trivial found
    exact ⟨⟨start, List.mem_cons_of_mem _ member, solution⟩, noGoal, length_le, expansions_le⟩
  | failed _ explores _ _ ih =>
    obtain ⟨⟨start, member, positions, solution⟩, noGoal, length_le, expansions_le⟩ :=
      ih trivial found
    have more := explores.expansions_le
    rw [Progress.visited_mark, VisitedSet.toSet_insert] at solution
    refine ⟨⟨start, List.mem_cons_of_mem _ member, positions, solution.mono ?_⟩, noGoal,
      length_le, ?_⟩
    · exact explores.visited_subset.trans (Set.subset_insert _ _)
    · rw [Progress.expansions_mark] at expansions_le
      omega
  | decided fresh _ _ ih =>
    obtain ⟨⟨start, member, solution⟩, noGoal, length_le, expansions_le⟩ := ih fresh found
    obtain rfl := List.mem_singleton.1 member
    exact ⟨⟨start, List.mem_cons_self, solution⟩, noGoal, length_le, expansions_le⟩

end Explores

end DepthFirst

end SearchSpace
