import SearchSpace.Proofs.Walk
import SearchSpace.Solver

/-!
# The account of a search

A search expands some states, gives up others as dead ends, and leaves some that it has met undone.
Its record lists the first two. The account of a search says that record, visited set and counters
agree: each key that was marked belongs to one state in the record or to one that waits, and to no
more than one. None of this needs a lawful space.
-/

namespace SearchSpace

universe u v w

variable {S : Type u} {K : Type v}

namespace StateSpace

/-- Reached by steps that leave neither a dead end, nor a goal, nor a state with a blocked key.
These are the steps that a search can take. -/
inductive Approaches (space : StateSpace S K) (blocked : Set K) (start : S) : S → Prop
  | start : Approaches space blocked start start
  | step {state next : S} : Approaches space blocked start state → space.isDeadEnd state = false →
      space.isGoal state = false → space.key state ∉ blocked → next ∈ space.successors state →
      Approaches space blocked start next

end StateSpace

/-- The states that a search has expanded and those that it has given up as dead ends, both in
order. -/
structure Record (S : Type u) where
  expanded : List S
  pruned : List S
deriving DecidableEq, Repr

namespace Record

/-- Nothing has been done. -/
def empty : Record S := ⟨[], []⟩

/-- One state has been expanded. -/
def expand (state : S) : Record S := ⟨[state], []⟩

/-- These states have been given up. -/
def prune (states : List S) : Record S := ⟨[], states⟩

/-- What was done first, and what was done after that. -/
instance : Append (Record S) :=
  ⟨fun earlier later =>
    ⟨earlier.expanded ++ later.expanded, earlier.pruned ++ later.pruned⟩⟩

/-- All states in the record. -/
def states (record : Record S) : List S := record.expanded ++ record.pruned

variable {record : Record S} {state : S} {states : List S}

@[simp] theorem expanded_append (earlier later : Record S) :
    (earlier ++ later).expanded = earlier.expanded ++ later.expanded := rfl

@[simp] theorem pruned_append (earlier later : Record S) :
    (earlier ++ later).pruned = earlier.pruned ++ later.pruned := rfl

@[simp] theorem append_empty (record : Record S) : record ++ empty = record := by
  obtain ⟨expanded, pruned⟩ := record
  show Record.mk (expanded ++ []) (pruned ++ []) = _
  rw [List.append_nil, List.append_nil]

theorem append_assoc (first second third : Record S) :
    first ++ second ++ third = first ++ (second ++ third) := by
  show Record.mk _ _ = Record.mk _ _
  simp only [expanded_append, pruned_append, List.append_assoc]

theorem mem_states_of_expanded (expanded : state ∈ record.expanded) : state ∈ record.states :=
  List.mem_append_left _ expanded

theorem states_expand_perm (record : Record S) (state : S) :
    (record ++ expand state).states.Perm (record.states ++ [state]) := by
  simp only [Record.states, expanded_append, pruned_append, expand, List.append_nil,
    List.append_assoc]
  exact List.perm_append_comm.append_left _

theorem states_prune (record : Record S) (states : List S) :
    (record ++ prune states).states = record.states ++ states := by
  simp only [Record.states, expanded_append, pruned_append, prune, List.append_nil,
    List.append_assoc]

end Record

variable [BEq K] [Hashable K]

/-! ## Steps and their record -/

section

variable {σ : Type w} {step : σ → Outcome S K ⊕ σ} {work : σ → Record S} {first record : Record S}
  {start : Outcome S K ⊕ σ} {outcome : Outcome S K}

/-- The steps of a search with the record of what was done in them, after `first` was done at the
start. -/
inductive Recorded (step : σ → Outcome S K ⊕ σ) (work : σ → Record S) (first : Record S)
    (start : Outcome S K ⊕ σ) : Record S → Outcome S K ⊕ σ → Prop
  | start : Recorded step work first start first start
  | step {record : Record S} {current : σ} {next : Outcome S K ⊕ σ} :
      Recorded step work first start record (.inr current) → step current = next →
      Recorded step work first start (record ++ work current) next

/-- What every step keeps holds as long as the search goes on. -/
theorem Recorded.keeps {P : Record S → σ → Prop} (begins : ∀ current, start = .inr current →
      P first current)
    (keeps : ∀ {record current next}, P record current → step current = .inr next →
      P (record ++ work current) next) {current : σ}
    (recorded : Recorded step work first start record (.inr current)) : P record current := by
  generalize reached : Sum.inr current = config at recorded
  induction recorded generalizing current with
  | start => exact begins current reached.symm
  | step _ stepped ih => exact keeps (ih rfl) (stepped.trans reached.symm)

/-- What every step keeps holds where the last step is taken. -/
theorem Recorded.exists_last {P : Record S → σ → Prop} (begins : ∀ current, start = .inr current →
      P first current)
    (keeps : ∀ {record current next}, P record current → step current = .inr next →
      P (record ++ work current) next)
    (recorded : Recorded step work first start record (.inl outcome)) :
    start = .inl outcome ∧ record = first ∨
      ∃ before last, P before last ∧ step last = .inl outcome ∧ record = before ++ work last := by
  cases recorded with
  | start => exact .inl ⟨rfl, rfl⟩
  | step recorded stepped => exact .inr ⟨_, _, recorded.keeps begins keeps, stepped, rfl⟩

/-- A search that has ended does nothing any more. -/
theorem Recorded.eq_of_inl {config : Outcome S K ⊕ σ}
    (recorded : Recorded step work first (.inl outcome) record config) :
    record = first ∧ config = .inl outcome := by
  induction recorded with
  | start => exact ⟨rfl, rfl⟩
  | step _ _ ih => cases ih.2

/-- Only one step can be the first. -/
theorem Recorded.cases_first {current : σ} {config : Outcome S K ⊕ σ}
    (recorded : Recorded step work first (.inr current) record config) :
    record = first ∧ config = .inr current ∨
      Recorded step work (first ++ work current) (step current) record config := by
  induction recorded with
  | start => exact .inl ⟨rfl, rfl⟩
  | step _ stepped ih =>
    rcases ih with ⟨rfl, same⟩ | onward
    · cases same
      rw [stepped]
      exact .inr .start
    · exact .inr (onward.step stepped)

end

/-! ## Accounts -/

/-- Record, visited set and counters agree: the states in the record and those that wait have keys
of their own, which are new and are the keys that were marked. -/
structure Account (space : StateSpace S K) (visited : VisitedSet K) (start : S) (record : Record S)
    (waiting : List S) (progress : Progress K) : Prop where
  approached : ∀ state ∈ record.states ++ waiting, space.Approaches visited.toSet start state
  unblocked : ∀ state ∈ record.states ++ waiting, space.key state ∉ visited
  distinct : ((record.states ++ waiting).map space.key).Nodup
  visited_iff : ∀ key, key ∈ progress.visited ↔
    key ∈ visited ∨ key ∈ (record.states ++ waiting).map space.key
  stats_eq : progress.stats =
    { expansions := record.expanded.length
      pruned := record.pruned.length
      visited := (record.states ++ waiting).length }
  size_eq : progress.visited.size = visited.size + (record.states ++ waiting).length

namespace Account

variable {space : StateSpace S K} {visited : VisitedSet K} {start state : S}
  {record other : Record S} {waiting others : List S} {progress later : Progress K}

/-- Before a search has done anything its account is in order. -/
theorem nil (space : StateSpace S K) (visited : VisitedSet K) (start : S) :
    Account space visited start .empty [] { visited } where
  approached := by simp [Record.states, Record.empty]
  unblocked := by simp [Record.states, Record.empty]
  distinct := List.nodup_nil
  visited_iff := by simp [Record.states, Record.empty]
  stats_eq := rfl
  size_eq := rfl

theorem mem_visited (account : Account space visited start record waiting progress) {key : K}
    (known : key ∈ visited) : key ∈ progress.visited :=
  (account.visited_iff key).2 (.inl known)

theorem key_mem_visited (account : Account space visited start record waiting progress)
    (met : state ∈ record.states ++ waiting) : space.key state ∈ progress.visited :=
  (account.visited_iff _).2 (.inr (List.mem_map_of_mem met))

/-- Only the order in which states are listed, and where, is changed. -/
theorem rearrange (account : Account space visited start record waiting progress)
    (perm : (other.states ++ others).Perm (record.states ++ waiting))
    (same : later.visited = progress.visited)
    (stats : later.stats = ⟨other.expanded.length, other.pruned.length, progress.stats.visited⟩) :
    Account space visited start other others later where
  approached state member := account.approached state (perm.mem_iff.1 member)
  unblocked state member := account.unblocked state (perm.mem_iff.1 member)
  distinct := (perm.map space.key).nodup_iff.2 account.distinct
  visited_iff key := by
    rw [same, account.visited_iff, (perm.map space.key).mem_iff]
  stats_eq := by rw [stats, account.stats_eq, perm.length_eq]
  size_eq := by rw [same, account.size_eq, perm.length_eq]

/-- A waiting state is expanded. -/
theorem expand (account : Account space visited start record (state :: waiting) progress) :
    Account space visited start (record ++ .expand state) waiting progress.countExpanded := by
  refine account.rearrange ?_ rfl ?_
  · have perm := (record.states_expand_perm state).append_right waiting
    rwa [List.append_assoc, List.singleton_append] at perm
  · rw [Progress.stats_countExpanded, account.stats_eq]
    simp [Record.expand]

/-- A waiting state is given up. -/
theorem prune (account : Account space visited start record (waiting ++ [state]) progress) :
    Account space visited start (record ++ .prune [state]) waiting progress.countPruned := by
  refine account.rearrange ?_ rfl ?_
  · rw [Record.states_prune, List.append_assoc]
    exact List.perm_append_comm.append_left _
  · rw [Progress.stats_countPruned, account.stats_eq]
    simp [Record.prune]

variable [LawfulBEq K]

/-- A state of a new key is marked, and waits. -/
theorem wait (account : Account space visited start record waiting progress)
    (approached : space.Approaches visited.toSet start state)
    (fresh : space.key state ∉ progress.visited) :
    Account space visited start record (waiting ++ [state])
      (progress.mark (space.key state)) := by
  obtain ⟨approached', unblocked, distinct, visited_iff, stats_eq, size_eq⟩ := account
  have new := fun known => fresh ((visited_iff (space.key state)).2 known)
  have unmarked := Progress.stats_mark_of_notMem fresh
  have grown : (progress.visited.insert (space.key state)).2.size = _ := VisitedSet.size_insert
  rw [if_neg fresh] at grown
  constructor <;> rw [← List.append_assoc] <;> generalize record.states ++ waiting = met at *
  · rw [List.forall_mem_append]
    exact ⟨approached', by simpa using approached⟩
  · rw [List.forall_mem_append]
    exact ⟨unblocked, by simpa using fun known => new (.inl known)⟩
  · rw [List.map_append, List.map_singleton, ← List.concat_eq_append, List.nodup_concat]
    exact ⟨fun known => new (.inr known), distinct⟩
  · intro key
    rw [Progress.visited_mark, VisitedSet.mem_insert, visited_iff, List.map_append,
      List.mem_append, List.map_singleton, List.mem_singleton]
    tauto
  · rw [unmarked, stats_eq, List.length_append, List.length_singleton]
  · rw [Progress.visited_mark, grown, size_eq, List.length_append, List.length_singleton,
      Nat.add_assoc]

/-- Marking a key again changes nothing. -/
theorem again (account : Account space visited start record waiting progress) {key : K}
    (known : key ∈ progress.visited) :
    Account space visited start record waiting (progress.mark key) where
  approached := account.approached
  unblocked := account.unblocked
  distinct := account.distinct
  visited_iff other := by
    rw [← account.visited_iff, Progress.visited_mark, VisitedSet.mem_insert, or_iff_right_iff_imp]
    rintro rfl
    exact known
  stats_eq := by rw [Progress.stats_mark_of_mem known, account.stats_eq]
  size_eq := by
    rw [Progress.visited_mark, VisitedSet.size_insert, if_pos known, account.size_eq]

end Account

/-- How a search ends, with the states that are left waiting and the set that is left behind: a
depth-first search has not marked its goal, while that of a breadth-first search is the first that
waits. All states on the way to it were expanded. -/
inductive Ended (space : StateSpace S K) (record : Record S) (visited : VisitedSet K) :
    Strategy → List S → Verdict S → Prop
  | exhausted {strategy : Strategy} : Ended space record visited strategy [] .exhausted
  | unmarked {passed : List S} {goal : S} : (∀ state ∈ passed, state ∈ record.expanded) →
      space.key goal ∉ visited → Ended space record visited .dfs [] (.found (passed ++ [goal]))
  | dequeued {passed rest : List S} {goal : S} : (∀ state ∈ passed, state ∈ record.expanded) →
      Ended space record visited .bfs (goal :: rest) (.found (passed ++ [goal]))
  | refused {strategy : Strategy} {first : S} {rest : List S} {limit : UInt64} :
      limit.toNat ≤ record.expanded.length →
      Ended space record visited strategy (first :: rest) (.stopped (.expansions limit))
  | tooDeep {limit : UInt64} : limit.toNat < record.expanded.length →
      Ended space record visited .dfs [] (.stopped (.depth limit))

end SearchSpace
