import Mathlib.Data.List.Perm.Subperm
import SearchSpace.Proofs.Answers
import SearchSpace.Proofs.BreadthFirst.History
import SearchSpace.Proofs.ClosedOff
import SearchSpace.Proofs.DepthFirst.Exploration

/-!
# What a search without success has met

A search that ends without a goal has met every state that can be reached without leaving a dead end
or a blocked key, and has met each key once. So in a lawful space the keys that it leaves behind and
its counters do not depend on the order in which it went. They are the same for both strategies.
-/

namespace SearchSpace

universe u v

variable {S : Type u} {K : Type v}

namespace StateSpace

/-- Reached by steps that leave neither a dead end nor a state with a blocked key. Such states at
the border are reached themselves. -/
inductive Reaches (space : StateSpace S K) (blocked : Set K) (start : S) : S → Prop
  | start : Reaches space blocked start start
  | step {state next : S} : Reaches space blocked start state → space.isDeadEnd state = false →
      space.key state ∉ blocked → next ∈ space.successors state → Reaches space blocked start next

variable {space : StateSpace S K} {blocked : Set K} {start next state : S} {positions : List Nat}
  {states : List S}

/-- What is reached from a successor is reached from the state itself. -/
theorem Reaches.of_successor (alive : space.isDeadEnd start = false)
    (fresh : space.key start ∉ blocked) (successor : next ∈ space.successors start)
    (reaches : space.Reaches blocked next state) : space.Reaches blocked start state := by
  induction reaches with
  | start => exact .step .start alive fresh successor
  | step _ alive' fresh' successor' ih => exact .step ih alive' fresh' successor'

/-- All states on a route are reached. -/
theorem Route.reaches (route : space.Route blocked start positions states) :
    ∀ state ∈ states, space.Reaches blocked start state := by
  have walk := route.walk
  induction walk with
  | stay start =>
    intro state member
    rw [List.mem_singleton.1 member]
    exact .start
  | move taken rest ih =>
    intro state member
    rcases List.mem_cons.1 member with rfl | member
    · exact .start
    · exact .of_successor route.start_alive route.start_fresh (List.mem_of_getElem? taken)
        (ih (route.tail rest) state member)

end StateSpace

variable [BEq K] [Hashable K]

theorem VisitedSet.subset_insert [LawfulBEq K] {visited : VisitedSet K} {key : K} :
    visited.toSet ⊆ (visited.insert key).2.toSet := by
  rw [VisitedSet.toSet_insert]
  exact Set.subset_insert _ _

/-- Marking a key again leaves the set as it was. -/
theorem Progress.mem_visited_mark [LawfulBEq K] {progress : Progress K} {key other : K}
    (known : key ∈ progress.visited) :
    other ∈ (progress.mark key).visited ↔ other ∈ progress.visited := by
  rw [Progress.visited_mark, VisitedSet.mem_insert, or_iff_right_iff_imp]
  rintro rfl
  exact known

/-- A complete account of a search from `start` that met no goal: the states it has met, in some
order, and what it has made of them. -/
structure Survey (space : StateSpace S K) (visited : VisitedSet K) (start : S) (met : List S)
    (progress : Progress K) : Prop where
  start_mem : start ∈ met
  reached : ∀ state ∈ met, space.Reaches visited.toSet start state
  unblocked : ∀ state ∈ met, space.key state ∉ visited
  distinct : (met.map space.key).Nodup
  noGoal : ∀ state ∈ met, space.isDeadEnd state = false → space.isGoal state = false
  closed : ∀ state ∈ met, space.isDeadEnd state = false →
    ∀ next ∈ space.successors state, space.key next ∈ progress.visited
  visited_iff : ∀ key, key ∈ progress.visited ↔ key ∈ visited ∨ key ∈ met.map space.key
  balance : progress.stats.expansions + progress.stats.pruned = met.length
  pruned_eq : progress.stats.pruned = met.countP space.isDeadEnd
  visited_eq : progress.stats.visited = met.length

namespace Survey

variable {space : StateSpace S K} {visited : VisitedSet K} {start : S} {met others : List S}
  {progress other : Progress K}

/-- In a lawful space the keys left behind may be closed off. -/
theorem closedOff (survey : Survey space visited start met progress) (lawful : space.Lawful) :
    space.ClosedOff visited.toSet progress.visited.toSet :=
  (StateSpace.ClosedOff.self visited.toSet).extend lawful survey.visited_iff survey.noGoal
    survey.closed

/-- In a lawful space nothing that can be reached was left out. -/
theorem key_mem_visited (survey : Survey space visited start met progress)
    (lawful : space.Lawful) {state : S} (reaches : space.Reaches visited.toSet start state) :
    space.key state ∈ progress.visited := by
  induction reaches with
  | start => exact (survey.visited_iff _).2 (.inr (List.mem_map_of_mem survey.start_mem))
  | step _ alive fresh successor ih =>
    exact (survey.closedOff lawful).successors ih fresh alive successor

/-- The keys left behind are those that were visited before and those of the states reached. -/
theorem mem_visited_iff (survey : Survey space visited start met progress)
    (lawful : space.Lawful) (key : K) : key ∈ progress.visited ↔ key ∈ visited ∨
      ∃ state, space.Reaches visited.toSet start state ∧ space.key state = key := by
  constructor
  · intro member
    rcases (survey.visited_iff key).1 member with old | new
    · exact .inl old
    · obtain ⟨state, member, same⟩ := List.mem_map.1 new
      exact .inr ⟨state, survey.reached state member, same⟩
  · rintro (old | ⟨state, reaches, rfl⟩)
    · exact (survey.visited_iff key).2 (.inl old)
    · exact survey.key_mem_visited lawful reaches

/-- Two surveys from one start meet the same keys. -/
theorem keys_subset (survey : Survey space visited start met progress)
    (survey' : Survey space visited start others other) (lawful : space.Lawful) :
    met.map space.key ⊆ others.map space.key := by
  intro key member
  obtain ⟨state, inMet, rfl⟩ := List.mem_map.1 member
  have known := survey'.key_mem_visited lawful (survey.reached state inMet)
  exact ((survey'.visited_iff _).1 known).resolve_left (survey.unblocked state inMet)

/-- States of a kind that the key tells are met as often by one survey as by another. -/
theorem countP_le (survey : Survey space visited start met progress)
    (survey' : Survey space visited start others other) (lawful : space.Lawful) {kind : S → Bool}
    (told : ∀ {a b : S}, space.key a = space.key b → kind a = kind b) :
    met.countP kind ≤ others.countP kind := by
  have distinct : ((met.filter kind).map space.key).Nodup :=
    survey.distinct.sublist (List.filter_sublist.map _)
  have subset : (met.filter kind).map space.key ⊆ (others.filter kind).map space.key := by
    intro key member
    obtain ⟨state, inMet, rfl⟩ := List.mem_map.1 member
    rw [List.mem_filter] at inMet
    obtain ⟨twin, inOthers, same⟩ :=
      List.mem_map.1 (survey.keys_subset survey' lawful (List.mem_map_of_mem inMet.1))
    rw [← same]
    exact List.mem_map_of_mem (List.mem_filter.2 ⟨inOthers, (told same).trans inMet.2⟩)
  have le := (distinct.subperm subset).length_le
  rwa [List.length_map, List.length_map, ← List.countP_eq_length_filter,
    ← List.countP_eq_length_filter] at le

/-- Two surveys from one start count the same. -/
theorem stats_eq_stats (survey : Survey space visited start met progress)
    (survey' : Survey space visited start others other) (lawful : space.Lawful) :
    progress.stats = other.stats := by
  have countP_eq : ∀ {kind : S → Bool},
      (∀ {a b : S}, space.key a = space.key b → kind a = kind b) →
        met.countP kind = others.countP kind := by
    intro kind told
    exact Nat.le_antisymm (survey.countP_le survey' lawful told)
      (survey'.countP_le survey lawful told)
  have length_eq : met.length = others.length := by
    simpa using @countP_eq (fun _ => true) fun _ => rfl
  have pruned_eq : progress.stats.pruned = other.stats.pruned := by
    rw [survey.pruned_eq, survey'.pruned_eq, countP_eq lawful.isDeadEnd_eq]
  have visited_eq : progress.stats.visited = other.stats.visited := by
    rw [survey.visited_eq, survey'.visited_eq, length_eq]
  have expansions_eq : progress.stats.expansions = other.stats.expansions := by
    have left := survey.balance
    have right := survey'.balance
    omega
  calc progress.stats
      = ⟨progress.stats.expansions, progress.stats.pruned, progress.stats.visited⟩ := rfl
    _ = ⟨other.stats.expansions, other.stats.pruned, other.stats.visited⟩ := by
      rw [expansions_eq, pruned_eq, visited_eq]

end Survey

namespace BreadthFirst

variable {space : StateSpace S K} {limits : Limits} {visited : VisitedSet K} {initial : S}
  {history : History S} {frontier : Frontier S K} {outcome : Outcome S K} {arrival : Arrival S}
  {state : S}

/-- The states met so far. -/
def History.met (history : History S) : List S :=
  history.arrivals.map (·.state) ++ history.dead

omit [BEq K] [Hashable K] in
theorem History.keys_eq_map_met (history : History S) :
    history.keys space = history.met.map space.key := by
  rw [keys, met, List.map_append, List.map_map]
  rfl

/-- All states met are reached, and of them only the dead ends are not arrived at. -/
theorem Explains.reaches_of_met (explains : Explains space visited.toSet initial history frontier)
    (member : state ∈ history.met) : space.Reaches visited.toSet initial state ∧
      (space.isDeadEnd state = false → ∃ arrival ∈ history.arrivals, arrival.state = state) := by
  have arrived : ∀ arrival ∈ history.arrivals, arrival.state ∈ arrival.trail.toList :=
    fun arrival _ => Arrival.mem_toList.2 (.inl rfl)
  rcases List.mem_append.1 member with member | member
  · obtain ⟨arrival, old, rfl⟩ := List.mem_map.1 member
    have route := (explains.genuine arrival old).route
    exact ⟨route.reaches _ (arrived arrival old), fun _ => ⟨arrival, old, rfl⟩⟩
  · obtain ⟨deadEnd, arrival, expanded, successor⟩ := explains.rejected state member
    have old := List.mem_append_left history.waiting expanded
    have route := (explains.genuine arrival old).route
    have passed := arrived arrival old
    refine ⟨.step (route.reaches _ passed) (route.alive _ passed) (route.fresh _ passed) successor,
      fun alive => ?_⟩
    rw [deadEnd] at alive
    cases alive

/-- Once the queue is empty the states met are surveyed. -/
theorem Explains.survey (explains : Explains space visited.toSet initial history frontier)
    (drained : history.waiting = []) :
    Survey space visited initial history.met frontier.progress where
  start_mem := List.mem_append_left _ (List.mem_map.2 ⟨.root initial, explains.root_mem, rfl⟩)
  reached _ member := (explains.reaches_of_met member).1
  unblocked state member := by
    have key := List.mem_map_of_mem (f := space.key) member
    rw [← History.keys_eq_map_met] at key
    exact explains.unblocked _ key
  distinct := by
    rw [← History.keys_eq_map_met]
    exact explains.distinct
  noGoal state member alive := by
    obtain ⟨arrival, old, rfl⟩ := (explains.reaches_of_met member).2 alive
    rw [History.arrivals, drained, List.append_nil] at old
    exact explains.noGoal arrival old
  closed state member alive next successor := by
    obtain ⟨arrival, old, rfl⟩ := (explains.reaches_of_met member).2 alive
    rw [History.arrivals, drained, List.append_nil] at old
    obtain ⟨position, taken⟩ := List.mem_iff_getElem?.1 successor
    rw [explains.visited_iff, History.keys, List.mem_append]
    rcases explains.met arrival old position next taken with known | known | ⟨other, met, same, _⟩
    · exact .inl known
    · exact .inr (.inr known)
    · exact .inr (.inl (List.mem_map.2 ⟨other, met, same⟩))
  visited_iff key := by
    rw [explains.visited_iff, History.keys_eq_map_met]
    rfl
  balance := by
    rw [explains.stats_eq]
    simp [History.met, History.arrivals, drained]
  pruned_eq := by
    have alive : (history.arrivals.map (·.state)).countP space.isDeadEnd = 0 := by
      rw [List.countP_eq_zero]
      intro state member
      obtain ⟨arrival, old, rfl⟩ := List.mem_map.1 member
      have route := (explains.genuine arrival old).route
      rw [route.alive _ (Arrival.mem_toList.2 (.inl rfl))]
      exact Bool.false_ne_true
    have dead : history.dead.countP space.isDeadEnd = history.dead.length := by
      rw [List.countP_eq_length]
      exact fun state member => (explains.rejected state member).1
    rw [explains.stats_eq, History.met, List.countP_append, alive, dead, Nat.zero_add]
  visited_eq := by
    rw [explains.stats_eq, History.keys_eq_map_met, List.length_map]

/-- A search that starts at a state that is neither visited nor a dead end, and ends without a goal,
is surveyed. -/
theorem Decided.exists_survey (decided : Decided space limits visited initial outcome)
    (fresh : space.key initial ∉ visited) (alive : space.isDeadEnd initial = false)
    (exhausted : outcome.verdict = .exhausted) :
    ∃ met, Survey space visited initial met outcome.progress := by
  cases decided with
  | visited known => exact absurd known fresh
  | deadEnd _ deadEnd =>
    rw [alive] at deadEnd
    cases deadEnd
  | goal => cases exhausted
  | rounds _ _ explains _ round =>
    cases round with
    | drained empty =>
      rw [explains.queue_eq, List.map_eq_nil_iff] at empty
      exact ⟨_, explains.survey empty⟩
    | reached => cases exhausted
    | refused => cases exhausted

end BreadthFirst

namespace DepthFirst

variable {space : StateSpace S K} {limits : Limits} {blocked : Set K} {remaining : Nat}
  {task : Task S} {state next : S} {rest entered others : List S}
  {before middle after : Progress K} {verdict : Verdict S}

/-- The progress once a task has failed: a state that led nowhere is marked. -/
def Task.leave (space : StateSpace S K) : Task S → Progress K → Progress K
  | .state entered, progress => progress.mark (space.key entered)
  | .siblings _, progress => progress

/-- What a task has entered: states that are reached from it and were not visited before, each key
once. -/
structure Discovered (space : StateSpace S K) (blocked : Set K) (task : Task S) (entered : List S)
    (visited : VisitedSet K) : Prop where
  reached : ∀ state ∈ entered, ∃ start ∈ task.states, space.Reaches blocked start state
  fresh : ∀ state ∈ entered, space.key state ∉ visited
  distinct : (entered.map space.key).Nodup

namespace Discovered

variable {visited later : VisitedSet K}

theorem nil (visited : VisitedSet K) : Discovered space blocked (.siblings []) [] visited where
  reached := by simp
  fresh := by simp
  distinct := List.nodup_nil

theorem alone (fresh : space.key state ∉ visited) :
    Discovered space blocked (.state state) [state] visited where
  reached other member := ⟨other, member, .start⟩
  fresh other member := by rwa [List.mem_singleton.1 member]
  distinct := List.nodup_singleton _

/-- A state that is marked, and what its successors discover. -/
theorem behind [LawfulBEq K]
    (inner : Discovered space blocked (.siblings (space.successors state)) entered
      (visited.insert (space.key state)).2)
    (fresh : space.key state ∉ visited) (unblocked : space.key state ∉ blocked)
    (alive : space.isDeadEnd state = false) :
    Discovered space blocked (.state state) (state :: entered) visited where
  reached := by
    refine List.forall_mem_cons.2 ⟨⟨state, List.mem_cons_self, .start⟩, fun other member => ?_⟩
    obtain ⟨next, successor, reaches⟩ := inner.reached other member
    exact ⟨state, List.mem_cons_self, .of_successor alive unblocked successor reaches⟩
  fresh := by
    refine List.forall_mem_cons.2 ⟨fresh, fun other member old => ?_⟩
    exact inner.fresh other member (VisitedSet.mem_insert.2 (.inr old))
  distinct := by
    rw [List.map_cons, List.nodup_cons]
    refine ⟨fun again => ?_, inner.distinct⟩
    obtain ⟨other, member, twin⟩ := List.mem_map.1 again
    exact inner.fresh other member (VisitedSet.mem_insert.2 (.inl twin))

/-- A state in front of a list that is passed over. -/
theorem skip (discovered : Discovered space blocked (.siblings rest) entered visited) :
    Discovered space blocked (.siblings (next :: rest)) entered visited where
  reached state member := by
    obtain ⟨start, inRest, reaches⟩ := discovered.reached state member
    exact ⟨start, List.mem_cons_of_mem _ inRest, reaches⟩
  fresh := discovered.fresh
  distinct := discovered.distinct

/-- The first state of a list, where the others are not looked into. -/
theorem first (discovered : Discovered space blocked (.state next) entered visited) :
    Discovered space blocked (.siblings (next :: rest)) entered visited where
  reached state member := by
    obtain ⟨start, inFirst, reaches⟩ := discovered.reached state member
    obtain rfl := List.mem_singleton.1 inFirst
    exact ⟨start, List.mem_cons_self, reaches⟩
  fresh := discovered.fresh
  distinct := discovered.distinct

/-- What the first state of a list discovers has been visited when the others are looked into. -/
theorem append (left : Discovered space blocked (.state next) entered visited)
    (right : Discovered space blocked (.siblings rest) others later)
    (visited_iff : ∀ key, key ∈ later ↔ key ∈ visited ∨ key ∈ entered.map space.key) :
    Discovered space blocked (.siblings (next :: rest)) (entered ++ others) visited where
  reached state member := by
    rcases List.mem_append.1 member with member | member
    · exact left.first.reached state member
    · exact right.skip.reached state member
  fresh state member := by
    rcases List.mem_append.1 member with member | member
    · exact left.fresh state member
    · exact fun known => right.fresh state member ((visited_iff _).2 (.inl known))
  distinct := by
    rw [List.map_append]
    refine left.distinct.append right.distinct fun key inLeft inRight => ?_
    obtain ⟨state, member, rfl⟩ := List.mem_map.1 inRight
    exact right.fresh state member ((visited_iff _).2 (.inr inLeft))

end Discovered

/-- What a failed task has come to: the states entered are new, each key once, and all that they
lead to has been visited. -/
structure Covered (space : StateSpace S K) (blocked : Set K) (task : Task S) (entered : List S)
    (before after : Progress K) : Prop where
  settled : ∀ state ∈ task.states, space.key state ∈ after.visited
  reached : ∀ state ∈ entered, ∃ start ∈ task.states, space.Reaches blocked start state
  fresh : ∀ state ∈ entered, space.key state ∉ before.visited
  distinct : (entered.map space.key).Nodup
  noGoal : ∀ state ∈ entered, space.isDeadEnd state = false → space.isGoal state = false
  closed : ∀ state ∈ entered, space.isDeadEnd state = false →
    ∀ next ∈ space.successors state, space.key next ∈ after.visited
  visited_iff : ∀ key, key ∈ after.visited ↔ key ∈ before.visited ∨ key ∈ entered.map space.key
  balance : after.stats.expansions + after.stats.pruned =
    before.stats.expansions + before.stats.pruned + entered.length
  pruned_eq : after.stats.pruned = before.stats.pruned + entered.countP space.isDeadEnd
  visited_eq : after.stats.visited = before.stats.visited + entered.length

namespace Covered

theorem discovered (covered : Covered space blocked task entered before after) :
    Discovered space blocked task entered before.visited :=
  ⟨covered.reached, covered.fresh, covered.distinct⟩

theorem nil (before : Progress K) : Covered space blocked (.siblings []) [] before before where
  settled := by simp [Task.states]
  reached := by simp
  fresh := by simp
  distinct := List.nodup_nil
  noGoal := by simp
  closed := by simp
  visited_iff := by simp
  balance := rfl
  pruned_eq := rfl
  visited_eq := rfl

/-- A state that was visited before is covered. -/
theorem seen (covered : Covered space blocked (.siblings rest) entered before after)
    (known : space.key next ∈ before.visited) :
    Covered space blocked (.siblings (next :: rest)) entered before after :=
  { covered with
    settled := List.forall_mem_cons.2 ⟨(covered.visited_iff _).2 (.inl known), covered.settled⟩
    reached := covered.discovered.skip.reached }

theorem subset (covered : Covered space blocked task entered before after) {key : K}
    (member : key ∈ before.visited) : key ∈ after.visited :=
  (covered.visited_iff key).2 (.inl member)

/-- A state that failed and the states after it are covered together. -/
theorem append (first : Covered space blocked (.state next) entered before middle)
    (second : Covered space blocked (.siblings rest) others middle after) :
    Covered space blocked (.siblings (next :: rest)) (entered ++ others) before after where
  settled := by
    refine List.forall_mem_cons.2 ⟨second.subset (first.settled next ?_), second.settled⟩
    exact List.mem_cons_self
  reached := (first.discovered.append second.discovered first.visited_iff).reached
  fresh := (first.discovered.append second.discovered first.visited_iff).fresh
  distinct := (first.discovered.append second.discovered first.visited_iff).distinct
  noGoal state member := by
    rcases List.mem_append.1 member with member | member
    · exact first.noGoal state member
    · exact second.noGoal state member
  closed state member alive next successor := by
    rcases List.mem_append.1 member with member | member
    · exact second.subset (first.closed state member alive next successor)
    · exact second.closed state member alive next successor
  visited_iff key := by
    rw [second.visited_iff, first.visited_iff, List.map_append, List.mem_append, or_assoc]
  balance := by
    have left := first.balance
    have right := second.balance
    rw [List.length_append]
    omega
  pruned_eq := by
    rw [second.pruned_eq, first.pruned_eq, List.countP_append, Nat.add_assoc]
  visited_eq := by
    rw [second.visited_eq, first.visited_eq, List.length_append, Nat.add_assoc]

/-- In a lawful space keys that may be closed off may be closed off together with all that was
entered around them. -/
theorem closedOff (covered : Covered space blocked task entered before after)
    (lawful : space.Lawful) (closedOff : space.ClosedOff blocked before.visited.toSet) :
    space.ClosedOff blocked after.visited.toSet :=
  closedOff.extend lawful covered.visited_iff covered.noGoal covered.closed

variable [LawfulBEq K]

/-- A dead end is counted, and marked once it is left. -/
theorem deadEnd (fresh : space.key state ∉ before.visited)
    (deadEnd : space.isDeadEnd state = true) :
    Covered space blocked (.state state) [state] before
      (before.countPruned.mark (space.key state)) := by
  have unmarked : space.key state ∉ before.countPruned.visited := fresh
  have discovered : Discovered space blocked (.state state) [state] before.visited := .alone fresh
  refine ⟨?_, discovered.reached, discovered.fresh, discovered.distinct, ?_, ?_, ?_, ?_, ?_, ?_⟩
  · intro other member
    rw [List.mem_singleton.1 member]
    exact VisitedSet.mem_insert.2 (.inl rfl)
  · intro other member alive
    rw [List.mem_singleton.1 member, deadEnd] at alive
    cases alive
  · intro other member alive
    rw [List.mem_singleton.1 member, deadEnd] at alive
    cases alive
  · intro key
    simp [VisitedSet.mem_insert, or_comm]
  · rw [Progress.stats_mark_of_notMem unmarked]
    simp [Nat.add_assoc]
  · rw [Progress.stats_mark_of_notMem unmarked]
    simp [deadEnd]
  · rw [Progress.stats_mark_of_notMem unmarked]
    simp

/-- A state all of whose successors are covered is covered, and was marked on the way in. -/
theorem behind (inner : Covered space blocked (.siblings (space.successors state)) entered
      (before.mark (space.key state)).countExpanded after)
    (fresh : space.key state ∉ before.visited) (unblocked : space.key state ∉ blocked)
    (alive : space.isDeadEnd state = false) (noGoal : space.isGoal state = false) :
    Covered space blocked (.state state) (state :: entered) before
      (after.mark (space.key state)) := by
  have known : space.key state ∈ after.visited :=
    inner.subset (VisitedSet.mem_insert.2 (.inl rfl))
  have same : ∀ key, key ∈ (after.mark (space.key state)).visited ↔ key ∈ after.visited :=
    fun key => Progress.mem_visited_mark known
  have stats := Progress.stats_mark_of_mem known
  have discovered := inner.discovered.behind fresh unblocked alive
  refine ⟨?_, discovered.reached, discovered.fresh, discovered.distinct, ?_, ?_, ?_, ?_, ?_, ?_⟩
  · intro other member
    rw [List.mem_singleton.1 member, same]
    exact known
  · exact List.forall_mem_cons.2 ⟨fun _ => noGoal, inner.noGoal⟩
  · refine List.forall_mem_cons.2 ⟨fun _ next successor => ?_, fun other member => ?_⟩
    · exact (same _).2 (inner.settled next successor)
    · exact fun aliveOther next successor =>
        (same _).2 (inner.closed other member aliveOther next successor)
  · intro key
    rw [same, inner.visited_iff, Progress.visited_countExpanded, Progress.visited_mark,
      VisitedSet.mem_insert, List.map_cons, List.mem_cons]
    tauto
  · have balance := inner.balance
    rw [stats, List.length_cons]
    rw [Progress.stats_countExpanded, Progress.stats_mark_of_notMem fresh] at balance
    dsimp only at balance
    omega
  · rw [stats, inner.pruned_eq, Progress.stats_countExpanded, Progress.stats_mark_of_notMem fresh]
    simp [alive]
  · rw [stats, inner.visited_eq, Progress.stats_countExpanded, Progress.stats_mark_of_notMem fresh,
      List.length_cons]
    dsimp only
    omega

end Covered

variable [LawfulBEq K]

/-- An exploration that exhausts its task covers it. -/
theorem Explores.covered
    (explores : Explores space limits remaining task entered before verdict after)
    (unvisited : task.Unvisited space before.visited)
    (blocked_subset : blocked ⊆ before.visited.toSet) (exhausted : verdict = .exhausted) :
    Covered space blocked task entered before (task.leave space after) := by
  induction explores with
  | tooDeep => cases exhausted
  | deadEnd deadEnd => exact .deadEnd unvisited deadEnd
  | goal => cases exhausted
  | spent => cases exhausted
  | expanded alive noGoal _ _ ih =>
    have inner := ih trivial (blocked_subset.trans VisitedSet.subset_insert)
      (Verdict.behind_eq_exhausted.1 exhausted)
    exact inner.behind unvisited (fun member => unvisited (blocked_subset member)) alive noGoal
  | done => exact .nil _
  | seen known _ ih => exact (ih trivial blocked_subset exhausted).seen known
  | failed fresh _ _ ih ih' =>
    have first := ih fresh blocked_subset rfl
    have subset := blocked_subset.trans fun key => first.subset
    exact first.append (ih' trivial subset exhausted)
  | decided _ undecided => exact absurd exhausted undecided

/-- A state that is no dead end was marked when it was entered, so leaving it changes nothing. -/
theorem Explores.mem_visited_of_alive
    (explores : Explores space limits remaining (.state state) entered before verdict after)
    (alive : space.isDeadEnd state = false) (exhausted : verdict = .exhausted) :
    state ∈ entered ∧ space.key state ∈ after.visited := by
  cases explores with
  | tooDeep => cases exhausted
  | deadEnd deadEnd =>
    rw [alive] at deadEnd
    cases deadEnd
  | goal => cases exhausted
  | spent => cases exhausted
  | expanded _ _ _ inner =>
    exact ⟨List.mem_cons_self, inner.visited_subset (VisitedSet.mem_insert.2 (.inl rfl))⟩

/-- A search that starts at a state that is neither visited nor a dead end, and ends without a goal,
is surveyed. -/
theorem exists_survey {visited : VisitedSet K} {initial : S}
    (fresh : space.key initial ∉ visited) (alive : space.isDeadEnd initial = false)
    (exhausted : (search space limits visited initial).verdict = .exhausted) :
    ∃ met, Survey space visited initial met (search space limits visited initial).progress := by
  rcases exists_explores_search space limits visited initial with
    ⟨known, _⟩ | ⟨_, entered, explores⟩
  · exact absurd known fresh
  · generalize (search space limits visited initial).progress = after at explores ⊢
    have ⟨start_mem, known⟩ := explores.mem_visited_of_alive alive exhausted
    have covered := explores.covered fresh subset_rfl exhausted
    have same : ∀ key, key ∈ (after.mark (space.key initial)).visited ↔ key ∈ after.visited :=
      fun key => Progress.mem_visited_mark known
    have stats := Progress.stats_mark_of_mem known
    simp only [Task.leave] at covered
    refine ⟨entered, start_mem, ?_, covered.fresh, covered.distinct, covered.noGoal, ?_, ?_, ?_, ?_,
      ?_⟩
    · intro state member
      obtain ⟨start, inTask, reaches⟩ := covered.reached state member
      obtain rfl := List.mem_singleton.1 inTask
      exact reaches
    · intro state member aliveState next successor
      exact (same _).1 (covered.closed state member aliveState next successor)
    · intro key
      rw [← same, covered.visited_iff]
    · simpa [stats] using covered.balance
    · simpa [stats] using covered.pruned_eq
    · simpa [stats] using covered.visited_eq

end DepthFirst

end SearchSpace
