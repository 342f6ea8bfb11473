import SearchSpace.Proofs.ClosedOff
import SearchSpace.Proofs.DepthFirst.Exploration
import SearchSpace.Proofs.Survey

/-!
# Depth-first search around a region that is closed off

An exploration inside a region that may be closed off finds nothing and marks nothing outside it. So
an exploration for which the region was visited before goes the same way without it: it takes the
same turns elsewhere, at the same depths, and expands no more states.
-/

namespace SearchSpace.DepthFirst.Explores

universe u v

variable {S : Type u} {K : Type v} [BEq K] [Hashable K] [LawfulBEq K] {space : StateSpace S K}
  {limits : Limits} {blocked more : Set K} {remaining : Nat} {task : Task S} {entered : List S}
  {before after before' : Progress K} {verdict : Verdict S}

/-- An exploration of states in the region finds no goal and does not leave the region. -/
theorem stays (closedOff : space.ClosedOff blocked more)
    (explores : Explores space limits remaining task entered before verdict after)
    (unvisited : task.Unvisited space before.visited)
    (blocked_subset : blocked ⊆ before.visited.toSet)
    (inside : ∀ state ∈ task.states, space.key state ∈ more) :
    (∀ states, verdict ≠ .found states) ∧
      after.visited.toSet ⊆ before.visited.toSet ∪ more := by
  induction explores with
  | tooDeep => exact ⟨by simp, Set.subset_union_left⟩
  | deadEnd => exact ⟨by simp, Set.subset_union_left⟩
  | goal alive goal =>
    have noGoal := closedOff.noGoal (inside _ List.mem_cons_self)
      (fun member => unvisited (blocked_subset member)) alive
    rw [goal] at noGoal
    cases noGoal
  | spent =>
    refine ⟨by simp, ?_⟩
    rw [Progress.visited_mark, VisitedSet.toSet_insert]
    exact Set.insert_subset (.inr (inside _ List.mem_cons_self)) Set.subset_union_left
  | @expanded _ state _ before _ _ alive _ _ _ ih =>
    have inRegion := inside state List.mem_cons_self
    have unblocked : space.key state ∉ blocked := fun member => unvisited (blocked_subset member)
    obtain ⟨notFound, subset⟩ := ih trivial (blocked_subset.trans VisitedSet.subset_insert)
      fun next successor => closedOff.successors inRegion unblocked alive successor
    refine ⟨fun states found => ?_, subset.trans ?_⟩
    · obtain ⟨rest, inner, _⟩ := Verdict.behind_eq_found.1 found
      exact notFound rest inner
    · rw [Progress.visited_countExpanded, Progress.visited_mark, VisitedSet.toSet_insert]
      exact Set.union_subset (Set.insert_subset (.inr inRegion) Set.subset_union_left)
        Set.subset_union_right
  | done => exact ⟨by simp, Set.subset_union_left⟩
  | seen _ _ ih =>
    exact ih trivial blocked_subset fun state member => inside state (List.mem_cons_of_mem _ member)
  | @failed _ next _ _ _ before middle _ _ fresh explores _ ih ih' =>
    have inRegion := inside next List.mem_cons_self
    obtain ⟨_, first⟩ := ih fresh blocked_subset fun state member => by
      rwa [List.mem_singleton.1 member]
    have blocked_subset' : blocked ⊆ (middle.mark (space.key next)).visited.toSet :=
      (blocked_subset.trans explores.visited_subset).trans VisitedSet.subset_insert
    obtain ⟨notFound, second⟩ := ih' trivial blocked_subset' fun state member =>
      inside state (List.mem_cons_of_mem _ member)
    refine ⟨notFound, second.trans (Set.union_subset ?_ Set.subset_union_right)⟩
    rw [Progress.visited_mark, VisitedSet.toSet_insert]
    exact Set.insert_subset (.inr inRegion) first
  | decided fresh _ _ ih =>
    refine ih fresh blocked_subset fun state member => ?_
    rw [List.mem_singleton.1 member]
    exact inside _ List.mem_cons_self

/-- A state that is passed over only because the region was visited before lies in the region, and
so finds no goal and leaves only keys of it. -/
theorem stays_of_passed {next : S} (closedOff : space.ClosedOff blocked more)
    (explores : Explores space limits remaining (.state next) entered before verdict after)
    (blocked_subset : blocked ⊆ before.visited.toSet) (fresh : space.key next ∉ before.visited)
    (same : before'.visited.toSet = before.visited.toSet ∪ more)
    (passed : space.key next ∈ before'.visited) :
    space.key next ∈ more ∧ (∀ states, verdict ≠ .found states) ∧
      after.visited.toSet ⊆ before.visited.toSet ∪ more := by
  have member : space.key next ∈ before.visited.toSet ∪ more := same ▸ passed
  have inside := member.resolve_left fresh
  exact ⟨inside, explores.stays closedOff fresh blocked_subset
    (by simpa [Task.states] using inside)⟩

/-- An exploration that is not stopped can do without the region: with all of it visited before, it
comes to the same verdict, leaves the same keys beside the region, and expands no more states. -/
theorem shortcut (closedOff : space.ClosedOff blocked more)
    (explores : Explores space limits remaining task entered before verdict after)
    (unstopped : ∀ reason, verdict ≠ .stopped reason)
    (blocked_subset : blocked ⊆ before.visited.toSet)
    (unvisited : task.Unvisited space before'.visited)
    (same : before'.visited.toSet = before.visited.toSet ∪ more)
    (le : before'.stats.expansions ≤ before.stats.expansions) :
    ∃ entered' after', Explores space limits remaining task entered' before' verdict after' ∧
      after'.visited.toSet = after.visited.toSet ∪ more ∧
      after'.stats.expansions ≤ after.stats.expansions := by
  induction explores generalizing before' with
  | tooDeep => exact absurd rfl (unstopped _)
  | deadEnd deadEnd => exact ⟨_, _, .deadEnd deadEnd, same, le⟩
  | goal alive goal => exact ⟨_, _, .goal alive goal, same, le⟩
  | spent => exact absurd rfl (unstopped _)
  | @expanded _ state _ before _ _ alive noGoal unspent _ ih =>
    have room := Limits.spent_eq_none_iff.2
      ((Limits.within_succ unspent).of_le (Nat.succ_le_succ le))
    have same' : ((before'.mark (space.key state)).countExpanded).visited.toSet =
        ((before.mark (space.key state)).countExpanded).visited.toSet ∪ more := by
      simp only [Progress.visited_countExpanded, Progress.visited_mark, VisitedSet.toSet_insert,
        same, Set.insert_union]
    obtain ⟨entered', after', explores', keys, fewer⟩ := ih
      (Verdict.not_stopped_of_behind unstopped)
      (blocked_subset.trans VisitedSet.subset_insert) trivial same' (Nat.succ_le_succ le)
    exact ⟨_, after', .expanded alive noGoal room explores', keys, fewer⟩
  | done => exact ⟨_, _, .done, same, le⟩
  | @seen _ next _ _ _ _ _ known _ ih =>
    have known' : space.key next ∈ before'.visited.toSet := same ▸ Or.inl known
    obtain ⟨entered', after', explores', keys, fewer⟩ :=
      ih unstopped blocked_subset trivial same le
    exact ⟨entered', after', .seen known' explores', keys, fewer⟩
  | @failed _ next _ _ _ before middle _ _ fresh explores _ ih ih' =>
    have blocked_subset' : blocked ⊆ (middle.mark (space.key next)).visited.toSet :=
      (blocked_subset.trans explores.visited_subset).trans VisitedSet.subset_insert
    by_cases inRegion : space.key next ∈ before'.visited
    · -- Only the longer exploration goes into the region, and it comes back with keys of it.
      obtain ⟨inMore, -, subset⟩ :=
        explores.stays_of_passed closedOff blocked_subset fresh same inRegion
      have same' : before'.visited.toSet =
          (middle.mark (space.key next)).visited.toSet ∪ more := by
        rw [Progress.visited_mark, VisitedSet.toSet_insert, same]
        apply Set.Subset.antisymm
        · exact Set.union_subset_union_left _
            (explores.visited_subset.trans (Set.subset_insert _ _))
        · exact Set.union_subset (Set.insert_subset (.inr inMore) subset) Set.subset_union_right
      obtain ⟨entered', after', explores', keys, fewer⟩ := ih' unstopped blocked_subset' trivial
        same' (Nat.le_trans le explores.expansions_le)
      exact ⟨entered', after', .seen inRegion explores', keys, fewer⟩
    · obtain ⟨entered', middle', explores', keys, fewer⟩ :=
        ih (by simp) blocked_subset inRegion same le
      have same' : (middle'.mark (space.key next)).visited.toSet =
          (middle.mark (space.key next)).visited.toSet ∪ more := by
        simp only [Progress.visited_mark, VisitedSet.toSet_insert, keys, Set.insert_union]
      obtain ⟨others', after', explores'', keys', fewer'⟩ :=
        ih' unstopped blocked_subset' trivial same' fewer
      exact ⟨_, after', .failed inRegion explores' explores'', keys', fewer'⟩
  | @decided _ next _ _ before _ verdict fresh undecided explores ih =>
    by_cases inRegion : space.key next ∈ before'.visited
    · obtain ⟨-, notFound, -⟩ :=
        explores.stays_of_passed closedOff blocked_subset fresh same inRegion
      cases verdict with
      | found states => exact absurd rfl (notFound states)
      | exhausted => exact absurd rfl undecided
      | stopped reason => exact absurd rfl (unstopped reason)
    · obtain ⟨entered', after', explores', keys, fewer⟩ :=
        ih unstopped blocked_subset inRegion same le
      exact ⟨entered', after', .decided inRegion undecided explores', keys, fewer⟩

end SearchSpace.DepthFirst.Explores
