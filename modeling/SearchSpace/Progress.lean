import SearchSpace.Limits
import SearchSpace.VisitedSet

/-!
# Progress of a search

What a search carries along: the set of the keys it has met and three counters. Every outcome, an
exceeded limit too, leaves the progress made so far behind.
-/

namespace SearchSpace

universe u

/-- The counters of one search. -/
structure Stats where
  /-- The states whose successors were generated. -/
  expansions : Nat := 0
  /-- The states given up as dead ends. -/
  pruned : Nat := 0
  /-- The keys that were added to the visited set. -/
  visited : Nat := 0
deriving DecidableEq, Repr, Inhabited

/-- The visited set and the counters of a search under way. -/
structure Progress (K : Type u) [BEq K] [Hashable K] where
  /-- The keys met so far, and those that were off limits from the start. -/
  visited : VisitedSet K
  /-- The counters so far. -/
  stats : Stats := {}

namespace Progress

variable {K : Type u} [BEq K] [Hashable K]

/-- Marks the key as visited and counts it if it is new. -/
def mark : Progress K → K → Progress K
  | ⟨visited, stats⟩, key =>
    let (isNew, visited) := visited.insert key
    ⟨visited, { stats with visited := stats.visited + isNew.toNat }⟩

/-- Counts one dead end. -/
def countPruned : Progress K → Progress K
  | ⟨visited, stats⟩ => ⟨visited, { stats with pruned := stats.pruned + 1 }⟩

/-- Counts one state whose successors are generated. -/
def countExpanded : Progress K → Progress K
  | ⟨visited, stats⟩ => ⟨visited, { stats with expansions := stats.expansions + 1 }⟩

variable (progress : Progress K) (key : K)

@[simp] theorem visited_mark : (progress.mark key).visited = (progress.visited.insert key).2 := rfl

@[simp] theorem visited_countPruned : progress.countPruned.visited = progress.visited := rfl

@[simp] theorem visited_countExpanded : progress.countExpanded.visited = progress.visited := rfl

@[simp] theorem stats_countPruned : progress.countPruned.stats =
    { progress.stats with pruned := progress.stats.pruned + 1 } := rfl

@[simp] theorem stats_countExpanded : progress.countExpanded.stats =
    { progress.stats with expansions := progress.stats.expansions + 1 } := rfl

@[simp] theorem expansions_mark :
    (progress.mark key).stats.expansions = progress.stats.expansions := rfl

/-- Marking counts keys that were not in the set. -/
theorem stats_mark : (progress.mark key).stats =
    { progress.stats with
      visited := progress.stats.visited + (!progress.visited.contains key).toNat } := by
  rw [← VisitedSet.fst_insert]
  rfl

variable {progress key}

theorem stats_mark_of_notMem (fresh : key ∉ progress.visited) : (progress.mark key).stats =
    { progress.stats with visited := progress.stats.visited + 1 } := by
  rw [stats_mark, ← VisitedSet.contains_iff_mem, Bool.not_eq_true] at *
  rw [fresh]
  rfl

theorem stats_mark_of_mem (known : key ∈ progress.visited) :
    (progress.mark key).stats = progress.stats := by
  rw [stats_mark, VisitedSet.contains_iff_mem.2 known]
  rfl

end Progress

end SearchSpace
