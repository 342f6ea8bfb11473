import SearchSpace.Proofs.DepthFirst.Shortcut
import SearchSpace.Proofs.Unpruned

/-!
# Depth-first search with and without dead ends

Two explorations of one task are compared, one that gives up at dead ends and one that does not.
What the second visits besides is behind dead ends, or was visited by it in another order; if the
dead ends are sound, all of that may be closed off. So both come to the same verdict, and the first
visits no key that the second does not.
-/

namespace SearchSpace

universe u v

variable {S : Type u} {K : Type v} [BEq K] [Hashable K] [LawfulBEq K]

theorem VisitedSet.size_le_of_subset {left right : VisitedSet K}
    (subset : left.toSet ⊆ right.toSet) : left.size ≤ right.size := by
  have distinct : left.toList.Nodup := by
    have distinct := left.keys.distinct_toList
    simpa [List.Nodup, VisitedSet.toList] using distinct
  have le := (distinct.subperm fun key member =>
    VisitedSet.mem_toList.2 (subset (VisitedSet.mem_toList.1 member))).length_le
  simpa [VisitedSet.toList, VisitedSet.size] using le

theorem Progress.size_mark_of_notMem {progress : Progress K} {key : K}
    (fresh : key ∉ progress.visited) :
    (progress.mark key).visited.size = progress.visited.size + 1 := by
  rw [visited_mark, VisitedSet.size_insert, if_neg fresh]

namespace DepthFirst

variable {space : StateSpace S K} {limits limits' : Limits} {blocked : Set K}
  {remaining remaining' : Nat} {task : Task S} {entered entered' : List S}
  {before after before' after' : Progress K} {verdict verdict' : Verdict S}

/-- The search without dead ends is ahead of the one with them: it has visited all that the other
has, and all that it has visited may be closed off around the blocked keys. -/
structure Ahead (space : StateSpace S K) (blocked : Set K) (visited more : VisitedSet K) :
    Prop where
  blocked_subset : blocked ⊆ visited.toSet
  subset : visited.toSet ⊆ more.toSet
  closedOff : space.unpruned.ClosedOff blocked more.toSet

namespace Ahead

variable {visited more : VisitedSet K}

omit [LawfulBEq K] in
theorem initial (visited : VisitedSet K) : Ahead space visited.toSet visited visited :=
  ⟨subset_rfl, subset_rfl, .self _⟩

/-- On the way down both mark the state, and it is blocked. -/
theorem enter (ahead : Ahead space blocked visited more) (key : K) :
    Ahead space (insert key blocked) (visited.insert key).2 (more.insert key).2 where
  blocked_subset := by
    rw [VisitedSet.toSet_insert]
    exact Set.insert_subset_insert ahead.blocked_subset
  subset := by
    rw [VisitedSet.toSet_insert, VisitedSet.toSet_insert]
    exact Set.insert_subset_insert ahead.subset
  closedOff := by
    rw [VisitedSet.toSet_insert]
    exact ahead.closedOff.insert key

/-- A state that only the search with dead ends looks into leads to nothing that the other has not
visited. -/
theorem stays {state : S} (ahead : Ahead space blocked before.visited more)
    (explores : Explores space limits remaining (.state state) entered before verdict after)
    (fresh : space.key state ∉ before.visited) (known : space.key state ∈ more) :
    (∀ states, verdict ≠ .found states) ∧ after.visited.toSet ⊆ more.toSet := by
  obtain ⟨notFound, subset⟩ := explores.stays ahead.closedOff.of_unpruned fresh
    ahead.blocked_subset (by simpa [Task.states] using known)
  exact ⟨notFound, subset.trans (Set.union_subset ahead.subset subset_rfl)⟩

end Ahead

namespace Explores

/-- With sound dead ends or without, an exploration that is not stopped comes to the same verdict.
With them it visits no key that it does not visit without. -/
theorem agrees_unpruned (lawful : space.Lawful) (sound : space.SoundDeadEnds)
    (explores : Explores space limits remaining task entered before verdict after)
    (unstopped : ∀ reason, verdict ≠ .stopped reason)
    (explores' : Explores space.unpruned limits' remaining' task entered' before' verdict' after')
    (unstopped' : ∀ reason, verdict' ≠ .stopped reason)
    (unvisited : task.Unvisited space before'.visited)
    (ahead : Ahead space blocked before.visited before'.visited) :
    verdict = verdict' ∧ after.visited.toSet ⊆ after'.visited.toSet := by
  induction explores generalizing blocked remaining' entered' before' verdict' after' with
  | tooDeep => exact absurd rfl (unstopped _)
  | @deadEnd _ state before deadEnd =>
    refine ⟨?_, ahead.subset.trans explores'.visited_subset⟩
    cases verdict' with
    | exhausted => rfl
    | stopped reason => exact absurd rfl (unstopped' reason)
    | found states =>
      obtain ⟨⟨start, member, positions, solution⟩, -⟩ := explores'.found unvisited rfl
      obtain rfl := List.mem_singleton.1 member
      exact absurd ⟨positions, states, solution.toSolution⟩ (sound.not_solvable deadEnd)
  | @goal _ state _ _ goal =>
    cases explores' with
    | tooDeep => exact absurd rfl (unstopped' _)
    | deadEnd deadEnd => cases deadEnd
    | goal => exact ⟨rfl, ahead.subset⟩
    | spent => exact absurd rfl (unstopped' _)
    | expanded _ noGoal =>
      rw [show space.unpruned.isGoal state = true from goal] at noGoal
      cases noGoal
  | spent => exact absurd rfl (unstopped _)
  | @expanded _ state _ _ _ _ _ noGoal _ _ ih =>
    cases explores' with
    | tooDeep => exact absurd rfl (unstopped' _)
    | deadEnd deadEnd => cases deadEnd
    | goal _ goal =>
      rw [show space.unpruned.isGoal state = false from noGoal] at goal
      cases goal
    | spent => exact absurd rfl (unstopped' _)
    | expanded _ _ _ inner' =>
      obtain ⟨same, subset⟩ := ih (Verdict.not_stopped_of_behind unstopped) inner'
        (Verdict.not_stopped_of_behind unstopped') trivial (ahead.enter (space.key state))
      exact ⟨congrArg (Verdict.behind state) same, subset⟩
  | done =>
    cases explores'
    exact ⟨rfl, ahead.subset⟩
  | @seen _ next _ _ _ _ _ known _ ih =>
    cases explores' with
    | seen _ rest' => exact ih unstopped rest' unstopped' trivial ahead
    | failed fresh' => exact absurd (ahead.subset known) fresh'
    | decided fresh' => exact absurd (ahead.subset known) fresh'
  | @failed _ next _ _ _ _ middle _ _ fresh first _ ih ih' =>
    have blocked_subset : blocked ⊆ (middle.mark (space.key next)).visited.toSet :=
      (ahead.blocked_subset.trans first.visited_subset).trans VisitedSet.subset_insert
    cases explores' with
    | seen known' rest' =>
      -- The search without dead ends was there before.
      obtain ⟨-, subset⟩ := ahead.stays first fresh known'
      refine ih' unstopped rest' unstopped' trivial ⟨blocked_subset, ?_, ahead.closedOff⟩
      rw [Progress.visited_mark, VisitedSet.toSet_insert]
      exact Set.insert_subset known' subset
    | failed fresh' first' rest' =>
      obtain ⟨-, subset⟩ := ih (by simp) first' (by simp) fresh' ahead
      have covered := first'.covered fresh' (ahead.blocked_subset.trans ahead.subset) rfl
      refine ih' unstopped rest' unstopped' trivial ⟨blocked_subset, ?_,
        covered.closedOff lawful.unpruned ahead.closedOff⟩
      rw [Progress.visited_mark, Progress.visited_mark, VisitedSet.toSet_insert,
        VisitedSet.toSet_insert]
      exact Set.insert_subset_insert subset
    | decided fresh' undecided' first' =>
      obtain ⟨same, -⟩ := ih (by simp) first' unstopped' fresh' ahead
      exact absurd same.symm undecided'
  | @decided _ next _ _ _ _ verdict fresh undecided first ih =>
    cases explores' with
    | seen known' =>
      obtain ⟨notFound, -⟩ := ahead.stays first fresh known'
      cases verdict with
      | found states => exact absurd rfl (notFound states)
      | exhausted => exact absurd rfl undecided
      | stopped reason => exact absurd rfl (unstopped reason)
    | failed fresh' first' =>
      obtain ⟨same, -⟩ := ih unstopped first' (by simp) fresh' ahead
      exact absurd same undecided
    | decided fresh' _ first' => exact ih unstopped first' unstopped' fresh' ahead

/-- Every state that is expanded adds its key to the visited set. -/
theorem expansions_add_size_le
    (explores : Explores space limits remaining task entered before verdict after)
    (unvisited : task.Unvisited space before.visited) :
    after.stats.expansions + before.visited.size ≤
      before.stats.expansions + after.visited.size := by
  have size_le_mark : ∀ (progress : Progress K) (key : K),
      progress.visited.size ≤ (progress.mark key).visited.size :=
    fun progress key => VisitedSet.size_le_of_subset VisitedSet.subset_insert
  induction explores with
  | tooDeep => exact Nat.le_refl _
  | deadEnd => exact Nat.le_refl _
  | goal => exact Nat.le_refl _
  | spent => exact Nat.add_le_add_left (size_le_mark _ _) _
  | @expanded _ state _ before _ _ _ _ _ _ ih =>
    have le := ih trivial
    simp only [Progress.stats_countExpanded, Progress.visited_countExpanded,
      Progress.expansions_mark, Progress.size_mark_of_notMem unvisited] at le
    omega
  | done => exact Nat.le_refl _
  | seen _ _ ih => exact ih trivial
  | @failed _ next _ _ _ _ middle _ _ fresh _ _ ih ih' =>
    have le := ih fresh
    have le' := ih' trivial
    have more := size_le_mark middle (space.key next)
    rw [Progress.expansions_mark] at le'
    omega
  | decided fresh _ _ ih => exact ih fresh

/-- If there are no dead ends it is only by expanding states that keys are added. -/
theorem size_add_expansions_le (alive : ∀ state, space.isDeadEnd state = false)
    (explores : Explores space limits remaining task entered before verdict after)
    (unvisited : task.Unvisited space before.visited)
    (unstopped : ∀ reason, verdict ≠ .stopped reason) :
    before.stats.expansions + after.visited.size ≤
      after.stats.expansions + before.visited.size := by
  induction explores with
  | tooDeep => exact Nat.le_refl _
  | deadEnd => exact Nat.le_refl _
  | goal => exact Nat.le_refl _
  | spent => exact absurd rfl (unstopped _)
  | @expanded _ state _ before _ _ _ _ _ _ ih =>
    have le := ih trivial (Verdict.not_stopped_of_behind unstopped)
    simp only [Progress.stats_countExpanded, Progress.visited_countExpanded,
      Progress.expansions_mark, Progress.size_mark_of_notMem unvisited] at le
    omega
  | done => exact Nat.le_refl _
  | seen _ _ ih => exact ih trivial unstopped
  | @failed _ next _ _ _ _ middle _ _ fresh first _ ih ih' =>
    have le := ih fresh (by simp)
    have le' := ih' trivial unstopped
    -- The state was marked when it was entered.
    have ⟨_, known⟩ := first.mem_visited_of_alive (alive next) rfl
    rw [Progress.expansions_mark, Progress.visited_mark, VisitedSet.size_insert,
      if_pos known] at le'
    omega
  | decided fresh _ _ ih => exact ih fresh unstopped

end Explores

/-- With sound dead ends a search that is not stopped decides the same as without, and expands no
more states. -/
theorem search_agrees_unpruned {visited : VisitedSet K} {initial : S} (lawful : space.Lawful)
    (sound : space.SoundDeadEnds)
    (unstopped : ∀ reason, (search space limits visited initial).verdict ≠ .stopped reason)
    (unstopped' : ∀ reason,
      (search space.unpruned limits' visited initial).verdict ≠ .stopped reason) :
    (search space limits visited initial).verdict =
        (search space.unpruned limits' visited initial).verdict ∧
      (search space limits visited initial).progress.stats.expansions ≤
        (search space.unpruned limits' visited initial).progress.stats.expansions := by
  rcases exists_explores_search space limits visited initial with
    ⟨known, answer⟩ | ⟨fresh, entered, explores⟩
  · have answer' : search space.unpruned limits' visited initial = ⟨.exhausted, { visited }⟩ :=
      if_pos known
    rw [answer, answer']
    exact ⟨rfl, Nat.le_refl _⟩
  · rcases exists_explores_search space.unpruned limits' visited initial with
      ⟨known, _⟩ | ⟨_, entered', explores'⟩
    · exact absurd known fresh
    · obtain ⟨same, subset⟩ := explores.agrees_unpruned lawful sound unstopped explores' unstopped'
        fresh (.initial visited)
      have le := explores.expansions_add_size_le fresh
      have le' := explores'.size_add_expansions_le StateSpace.isDeadEnd_unpruned fresh unstopped'
      have size_le := VisitedSet.size_le_of_subset subset
      simp only [Nat.zero_add] at le le'
      exact ⟨same, by omega⟩

end DepthFirst

end SearchSpace
